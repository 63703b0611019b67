import OsProjects.FileSys.Alloc

/-!
# The bitmap allocators of `fs_util.c`

Blocks and inodes are handed out by the same code over different bitmaps and
counters.  A `Pool` is such a bitmap with its counter, and the laws of the two
functions are proved once for every pool.
-/

namespace OsProjects.FileSys
open FirstFit

/-- A bitmap of `size` bits with the counter of its clear bits. -/
structure Pool where
  size : ℕ
  map : FS → ℤ → Int8
  count : FS → Int32
  put : FS → (ℤ → Int8) → Int32 → FS
  map_put : ∀ s m n, map (put s m n) = m
  count_put : ∀ s m n, count (put s m n) = n
  put_put : ∀ s m n m' n', put (put s m n) m' n' = put s m' n'
  put_self : ∀ s, put s (map s) (count s) = s

def blockPool : Pool where
  size := maxBlock
  map := FS.blockMap
  count s := s.superBlock.freeBlockCount
  put s m n := { s with superBlock := { s.superBlock with freeBlockCount := n }, blockMap := m }
  map_put _ _ _ := rfl
  count_put _ _ _ := rfl
  put_put _ _ _ _ _ := rfl
  put_self _ := rfl

def inodePool : Pool where
  size := maxInode
  map := FS.inodeMap
  count s := s.superBlock.freeInodeCount
  put s m n := { s with superBlock := { s.superBlock with freeInodeCount := n }, inodeMap := m }
  map_put _ _ _ := rfl
  count_put _ _ _ := rfl
  put_put _ _ _ _ _ := rfl
  put_self _ := rfl

/-- `get_block` and `get_inode` -/
def Pool.get (P : Pool) (s : FS) : ℤ × FS :=
  match firstFree (bitAt (P.map s)) P.size 0 with
  | some i => (i, P.put s (setBit (P.map s) i 1) (P.count s - 1))
  | none => (-1, s)

/-- `free_block` and `free_inode` -/
def Pool.free (P : Pool) (s : FS) (i : ℤ) : FS :=
  if bitAt (P.map s) i then P.put s (setBit (P.map s) i 0) (P.count s + 1) else s

/-- `get` hands out the least index whose bit is clear, and `free` takes it back. -/
structure Pool.FirstFit (P : Pool) (get : FS → ℤ × FS) (free : FS → ℤ → FS) : Prop where
  get_full : ∀ s, (get s).1 = -1 ↔ ∀ i : ℤ, 0 ≤ i → i < P.size → getBit (P.map s) i = 1
  get_failed : ∀ s, (get s).1 = -1 → (get s).2 = s
  get_least : ∀ s i s', get s = (i, s') → i ≠ -1 → 0 ≤ i ∧ i < P.size ∧ getBit (P.map s) i = 0 ∧
    (∀ j, 0 ≤ j → j < i → getBit (P.map s) j = 1) ∧
      s' = P.put s (setBit (P.map s) i 1) (P.count s - 1)
  free_used : ∀ s i, 0 ≤ i → i < P.size → getBit (P.map s) i = 1 →
    free s i = P.put s (setBit (P.map s) i 0) (P.count s + 1)
  free_unused : ∀ s i, 0 ≤ i → i < P.size → getBit (P.map s) i = 0 → free s i = s
  free_get : ∀ s i s', get s = (i, s') → i ≠ -1 → free s' i = s

lemma getBlock_eq : getBlock = blockPool.get := by
  funext s
  unfold getBlock Pool.get
  rw [getBlockMap_eq]
  change _ = match firstFree (bitAt s.blockMap) maxBlock 0 with
    | some i => (i, blockPool.put s (setBit s.blockMap i 1) (s.superBlock.freeBlockCount - 1))
    | none => (-1, s)
  cases firstFree (bitAt s.blockMap) maxBlock 0 with
  | none => rfl
  | some i =>
    rw [Int32.sub_eq_add_neg]
    rfl

lemma getInode_eq : getInode = inodePool.get := by
  funext s
  unfold getInode Pool.get
  rw [getInodeMap_eq]
  change _ = match firstFree (bitAt s.inodeMap) maxInode 0 with
    | some i => (i, inodePool.put s (setBit s.inodeMap i 1) (s.superBlock.freeInodeCount - 1))
    | none => (-1, s)
  cases firstFree (bitAt s.inodeMap) maxInode 0 with
  | none => rfl
  | some i =>
    rw [Int32.sub_eq_add_neg]
    rfl

lemma freeBlock_eq : freeBlock = blockPool.free := by
  funext s b
  unfold freeBlock Pool.free
  rw [getBlockMap_eq]
  rfl

lemma freeInode_eq : freeInode = inodePool.free := by
  funext s i
  unfold freeInode Pool.free
  rw [getInodeMap_eq]
  rfl

lemma getBit_eq_zero_iff (array : ℤ → Int8) (index : ℤ) :
    getBit array index = 0 ↔ bitAt array index = false := by
  rw [getBit_eq]
  cases bitAt array index <;> decide

/-- Setting a bit that was clear and clearing it again. -/
lemma setBit_setBit {array : ℤ → Int8} {i : ℤ} (h : bitAt array i = false) :
    setBit (setBit array i 1) i 0 = array := by
  have hset : bitAt (setBit array i 1) = Function.update (bitAt array) i true :=
    bitAt_setBit_eq array i true
  have hclear : bitAt (setBit (setBit array i 1) i 0) =
      Function.update (bitAt (setBit array i 1)) i false :=
    bitAt_setBit_eq (setBit array i 1) i false
  apply eq_of_bitAt
  intro j
  rw [hclear, hset, Function.update_idem, ← h, Function.update_eq_self]

namespace Pool
variable (P : Pool) {s s' : FS} {i : ℤ}

lemma get_cases (s : FS) :
    (P.get s = (-1, s) ∧ ∀ j : ℤ, 0 ≤ j → j < P.size → bitAt (P.map s) j = true) ∨
      ∃ i : ℤ, P.get s = (i, P.put s (setBit (P.map s) i 1) (P.count s - 1)) ∧ 0 ≤ i ∧
        i < P.size ∧ bitAt (P.map s) i = false ∧ ∀ j, 0 ≤ j → j < i → bitAt (P.map s) j = true := by
  unfold get
  cases hf : firstFree (bitAt (P.map s)) P.size 0 with
  | none =>
    refine Or.inl ⟨rfl, fun j h0 hj => ?_⟩
    exact firstFree_none hf j h0 (by omega)
  | some i =>
    obtain ⟨h0, hlt, hi, hbelow⟩ := firstFree_some hf
    exact Or.inr ⟨i, rfl, h0, by omega, hi, hbelow⟩

/-- The laws hold of every pool. -/
theorem firstFit : P.FirstFit P.get P.free where
  get_full s := by
    simp only [getBit_eq_one_iff]
    rcases P.get_cases s with ⟨hget, hall⟩ | ⟨i, hget, h0, hlt, hi, -⟩
    · rw [hget]
      exact ⟨fun _ => hall, fun _ => rfl⟩
    · rw [hget]
      constructor
      · intro hneg
        change i = -1 at hneg
        omega
      · intro hall
        rw [hall i h0 hlt] at hi
        cases hi
  get_failed s h := by
    rcases P.get_cases s with ⟨hget, -⟩ | ⟨i, hget, h0, -⟩
    · rw [hget]
    · rw [hget] at h
      change i = -1 at h
      omega
  get_least s i s' h hi := by
    simp only [getBit_eq_one_iff, getBit_eq_zero_iff]
    rcases P.get_cases s with ⟨hget, -⟩ | ⟨k, hget, h0, hlt, hk, hbelow⟩
    · rw [hget] at h
      exact absurd (Prod.mk.inj h).1.symm hi
    · obtain ⟨rfl, rfl⟩ := Prod.mk.inj (hget.symm.trans h)
      exact ⟨h0, hlt, hk, hbelow, rfl⟩
  free_used s i _ _ h := by
    rw [getBit_eq_one_iff] at h
    exact if_pos h
  free_unused s i _ _ h := by
    rw [getBit_eq_zero_iff] at h
    apply if_neg
    rw [h]
    exact Bool.false_ne_true
  free_get s i s' h hi := by
    rcases P.get_cases s with ⟨hget, -⟩ | ⟨k, hget, -, -, hk, -⟩
    · rw [hget] at h
      exact absurd (Prod.mk.inj h).1.symm hi
    · obtain ⟨rfl, rfl⟩ := Prod.mk.inj (hget.symm.trans h)
      have hbit : bitAt (setBit (P.map s) k 1) k = true := by
        have hset := bitAt_setBit (P.map s) k true k
        rw [if_pos rfl, if_pos rfl] at hset
        exact hset
      unfold free
      rw [P.map_put, if_pos hbit, P.count_put, P.put_put, setBit_setBit hk]
      rw [Int32.sub_add_cancel]
      exact P.put_self s

end Pool

/-- Setting a bit changes no other, and over bitmaps so kept both allocators are first-fit. -/
theorem allocators_firstFit :
    (∀ (array : ℤ → Int8) (i : ℤ) (value : Int8), value = 0 ∨ value = 1 →
      getBit (setBit array i value) i = value ∧
        ∀ j, j ≠ i → getBit (setBit array i value) j = getBit array j) ∧
    blockPool.FirstFit getBlock freeBlock ∧ inodePool.FirstFit getInode freeInode := by
  refine ⟨?_, ?_, ?_⟩
  · intro array i value hvalue
    obtain ⟨v, rfl⟩ : ∃ v : Bool, value = if v then 1 else 0 := by
      rcases hvalue with rfl | rfl
      · exact ⟨false, rfl⟩
      · exact ⟨true, rfl⟩
    constructor
    · rw [getBit_eq, bitAt_setBit, if_pos rfl]
    · intro j hj
      rw [getBit_eq, getBit_eq, bitAt_setBit, if_neg hj]
  · rw [getBlock_eq, freeBlock_eq]
    exact blockPool.firstFit
  · rw [getInode_eq, freeInode_eq]
    exact inodePool.firstFit

end OsProjects.FileSys
