import Mathlib

/-!
# Bitmaps: the bit operations of `fs_util.c`

A bitmap is an array of signed `char`s.  A `char` is promoted to `int` before it
is shifted, and cut off when it is stored.  `bitAt` is the bit an index stands for.
A negative index stands for a bit in front of the array.  In C the division rounds towards
0 and the shift is undefined there; only a directory whose block is -1, which `mkdir` leaves
on a full disk, leads to one.
-/

namespace OsProjects.FileSys

def toggleBit (array : ℤ → Int8) (index : ℤ) : ℤ → Int8 :=
  Function.update array (index / 8)
    ((array (index / 8)).toInt32 ^^^ (1 : Int32) <<< Int32.ofInt (index % 8)).toInt8

def getBit (array : ℤ → Int8) (index : ℤ) : Int8 :=
  ((1 : Int32) &&& (array (index / 8)).toInt32 >>> Int32.ofInt (index % 8)).toInt8

def setBit (array : ℤ → Int8) (index : ℤ) (value : Int8) : ℤ → Int8 :=
  if value ≠ 0 ∧ value ≠ 1 then array
  else
    let array := toggleBit array index
    if getBit array index = value then array else toggleBit array index

def bitAt (array : ℤ → Int8) (index : ℤ) : Bool :=
  (array (index / 8)).toBitVec.getLsbD (index % 8).toNat

/-! ## Bits under promotion -/

lemma shift_amount {k : ℕ} (hk : k < 8) : ((Int32.ofInt k).toBitVec.smod 32).toNat = k := by
  interval_cases k <;> rfl

lemma getLsbD_toInt8 (y : Int32) {i : ℕ} (hi : i < 8) :
    y.toInt8.toBitVec.getLsbD i = y.toBitVec.getLsbD i := by
  rw [Int32.toBitVec_toInt8, BitVec.getLsbD_signExtend, if_pos (by omega), decide_eq_true hi,
    Bool.true_and]

lemma getLsbD_toInt32 (x : Int8) {i : ℕ} (hi : i < 8) :
    x.toInt32.toBitVec.getLsbD i = x.toBitVec.getLsbD i := by
  rw [Int8.toBitVec_toInt32, BitVec.getLsbD_signExtend, if_pos hi,
    decide_eq_true (by omega : i < 32), Bool.true_and]

lemma getLsbD_one (i : ℕ) : (1 : Int32).toBitVec.getLsbD i = decide (i = 0) :=
  BitVec.getLsbD_one.trans (by simp)

lemma getLsbD_one_shiftLeft {k i : ℕ} (hk : k < 8) (_ : i < 8) :
    ((1 : Int32) <<< Int32.ofInt k).toBitVec.getLsbD i = decide (i = k) := by
  rw [Int32.toBitVec_shiftLeft, BitVec.shiftLeft_eq', shift_amount hk, BitVec.getLsbD_shiftLeft,
    getLsbD_one, Bool.eq_iff_iff]
  simp only [Bool.and_eq_true, Bool.not_eq_true', decide_eq_true_eq, decide_eq_false_iff_not]
  omega

lemma test_bit (x : Int8) {k : ℕ} (hk : k < 8) :
    ((1 : Int32) &&& x.toInt32 >>> Int32.ofInt k).toInt8 =
      if x.toBitVec.getLsbD k then 1 else 0 := by
  rw [← Int8.toBitVec_inj]
  apply BitVec.eq_of_getLsbD_eq
  intro i hi
  rw [getLsbD_toInt8 _ hi, Int32.toBitVec_and, BitVec.getLsbD_and, getLsbD_one,
    Int32.toBitVec_shiftRight, BitVec.sshiftRight_eq', shift_amount hk]
  rcases Nat.eq_zero_or_pos i with rfl | hpos
  · rw [BitVec.getLsbD_sshiftRight, Nat.add_zero, if_pos (by omega), getLsbD_toInt32 x hk]
    split_ifs with h
    · rw [h]
      rfl
    · rw [Bool.eq_false_of_not_eq_true h]
      rfl
  · rw [decide_eq_false (by omega), Bool.false_and]
    split_ifs
    · exact (BitVec.getLsbD_one.trans (by simp; omega)).symm
    · exact BitVec.getLsbD_zero.symm

lemma toggle_bit (x : Int8) {k i : ℕ} (hk : k < 8) (hi : i < 8) :
    (x.toInt32 ^^^ (1 : Int32) <<< Int32.ofInt k).toInt8.toBitVec.getLsbD i =
      if i = k then !x.toBitVec.getLsbD i else x.toBitVec.getLsbD i := by
  rw [getLsbD_toInt8 _ hi, Int32.toBitVec_xor, BitVec.getLsbD_xor, getLsbD_toInt32 x hi,
    getLsbD_one_shiftLeft hk hi]
  split_ifs with h
  · rw [decide_eq_true h, Bool.xor_true]
  · rw [decide_eq_false h, Bool.xor_false]

/-! ## The operations on whole bitmaps -/

/-- The position of a bit in its `char`. -/
lemma bit_position (index : ℤ) : ((index % 8).toNat : ℤ) = index % 8 ∧ (index % 8).toNat < 8 := by
  omega

lemma getBit_eq (array : ℤ → Int8) (index : ℤ) :
    getBit array index = if bitAt array index then 1 else 0 := by
  obtain ⟨hcast, hlt⟩ := bit_position index
  rw [getBit, ← hcast, test_bit _ hlt]
  rfl

lemma getBit_eq_one_iff (array : ℤ → Int8) (index : ℤ) :
    getBit array index = 1 ↔ bitAt array index = true := by
  rw [getBit_eq]
  cases bitAt array index <;> decide

lemma bitAt_toggleBit (array : ℤ → Int8) (i j : ℤ) :
    bitAt (toggleBit array i) j = if j = i then !bitAt array j else bitAt array j := by
  obtain ⟨hi, hi8⟩ := bit_position i
  obtain ⟨hj, hj8⟩ := bit_position j
  by_cases hcell : j / 8 = i / 8
  · have hsame : (j % 8).toNat = (i % 8).toNat ↔ j = i := by omega
    rw [bitAt, toggleBit, hcell, Function.update_self, ← hi, toggle_bit _ hi8 hj8]
    simp only [hsame, bitAt, hcell]
  · have hne : j ≠ i := fun h => hcell (by rw [h])
    rw [bitAt, toggleBit, Function.update_of_ne hcell, if_neg hne]
    rfl

/-- Setting a bit sets that bit and no other. -/
lemma bitAt_setBit (array : ℤ → Int8) (i : ℤ) (value : Bool) (j : ℤ) :
    bitAt (setBit array i (if value then 1 else 0)) j =
      if j = i then value else bitAt array j := by
  rw [setBit, if_neg (by cases value <;> decide)]
  simp only
  rw [getBit_eq, bitAt_toggleBit, if_pos rfl]
  by_cases hbit : bitAt array i = value
  · have hne : ¬ (if (!bitAt array i) = true then (1 : Int8) else 0) = if value then 1 else 0 := by
      rw [hbit]
      cases value <;> decide
    rw [if_neg hne, bitAt_toggleBit, bitAt_toggleBit]
    by_cases hj : j = i
    · rw [if_pos hj, if_pos hj, if_pos hj, Bool.not_not, hj, hbit]
    · rw [if_neg hj, if_neg hj, if_neg hj]
  · have hflip : (!bitAt array i) = value := by
      cases value <;> simp_all
    rw [hflip, if_pos rfl, bitAt_toggleBit]
    by_cases hj : j = i
    · rw [if_pos hj, if_pos hj, hj, hflip]
    · rw [if_neg hj, if_neg hj]

lemma bitAt_setBit_eq (array : ℤ → Int8) (i : ℤ) (value : Bool) :
    bitAt (setBit array i (if value then 1 else 0)) =
      Function.update (bitAt array) i value := by
  funext j
  rw [bitAt_setBit, Function.update_apply]

/-- A bitmap is determined by its bits. -/
lemma eq_of_bitAt {a b : ℤ → Int8} (h : ∀ j, bitAt a j = bitAt b j) : a = b := by
  funext k
  rw [← Int8.toBitVec_inj]
  apply BitVec.eq_of_getLsbD_eq
  intro i hi
  have hbit := h (8 * k + i)
  have hdiv : (8 * k + (i : ℤ)) / 8 = k := by omega
  have hmod : ((8 * k + (i : ℤ)) % 8).toNat = i := by omega
  unfold bitAt at hbit
  rwa [hdiv, hmod] at hbit

end OsProjects.FileSys
