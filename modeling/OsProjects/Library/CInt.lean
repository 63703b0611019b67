import Mathlib

/-!
# C's `int`

Increments and decrements that do not overflow, and the four bytes of an `int`
in memory, the lowest first.
-/

namespace OsProjects.CInt

lemma toInt_add_one {a : Int32} (h : a.toInt < 2 ^ 31 - 1) : (a + 1).toInt = a.toInt + 1 := by
  have hle := a.le_toInt
  rw [Int32.toInt_add, show (1 : Int32).toInt = 1 from rfl]
  apply Int.bmod_eq_of_le
  · omega
  · omega

lemma toInt_sub_one {a : Int32} (h : -2 ^ 31 < a.toInt) : (a - 1).toInt = a.toInt - 1 := by
  have hlt := a.toInt_lt
  rw [Int32.toInt_sub, show (1 : Int32).toInt = 1 from rfl]
  apply Int.bmod_eq_of_le
  · omega
  · omega

lemma toInt_add_neg_one {a : Int32} (h : -2 ^ 31 < a.toInt) : (a + -1).toInt = a.toInt - 1 := by
  rw [← Int32.sub_eq_add_neg]
  exact toInt_sub_one h

def byte (v : Int32) (i : ℕ) : UInt8 := UInt8.ofNat (v.toBitVec.toNat / 256 ^ i)

/-- The `int` with the bytes `b 0`, …, `b 3`. -/
def ofBytes (b : ℕ → UInt8) : Int32 :=
  Int32.ofBitVec (BitVec.ofNat 32
    ((b 0).toNat + 256 * (b 1).toNat + 65536 * (b 2).toNat + 16777216 * (b 3).toNat))

lemma byte_toNat (v : Int32) (i : ℕ) : (byte v i).toNat = v.toBitVec.toNat / 256 ^ i % 256 :=
  UInt8.toNat_ofNat'

lemma ofBytes_byte (v : Int32) : ofBytes (byte v) = v := by
  have hlt := v.toBitVec.isLt
  have hsum : v.toBitVec.toNat / 256 ^ 0 % 256 + 256 * (v.toBitVec.toNat / 256 ^ 1 % 256) +
      65536 * (v.toBitVec.toNat / 256 ^ 2 % 256) + 16777216 * (v.toBitVec.toNat / 256 ^ 3 % 256) =
        v.toBitVec.toNat := by
    norm_num only
    omega
  rw [ofBytes, byte_toNat, byte_toNat, byte_toNat, byte_toNat, hsum, BitVec.ofNat_toNat,
    BitVec.setWidth_eq]
  rfl

lemma ofBytes_congr {b c : ℕ → UInt8} (h : ∀ i < 4, b i = c i) : ofBytes b = ofBytes c := by
  rw [ofBytes, ofBytes, h 0 (by decide), h 1 (by decide), h 2 (by decide), h 3 (by decide)]

/-- Reading back the bytes of `v`. -/
lemma ofBytes_eq {b : ℕ → UInt8} {v : Int32} (h : ∀ i < 4, b i = byte v i) : ofBytes b = v :=
  (ofBytes_congr h).trans (ofBytes_byte v)

/-- The bytes of what is read from four bytes. -/
lemma byte_ofBytes (b : ℕ → UInt8) {i : ℕ} (hi : i < 4) : byte (ofBytes b) i = b i := by
  have h0 := (b 0).toNat_lt
  have h1 := (b 1).toNat_lt
  have h2 := (b 2).toNat_lt
  have h3 := (b 3).toNat_lt
  apply UInt8.toNat_inj.mp
  have hlt : (b 0).toNat + 256 * (b 1).toNat + 65536 * (b 2).toNat + 16777216 * (b 3).toNat <
      2 ^ 32 := by omega
  rw [byte_toNat, ofBytes]
  change (BitVec.ofNat 32 _).toNat / 256 ^ i % 256 = (b i).toNat
  rw [BitVec.toNat_ofNat, Nat.mod_eq_of_lt hlt]
  interval_cases i <;> norm_num only <;> omega

end OsProjects.CInt
