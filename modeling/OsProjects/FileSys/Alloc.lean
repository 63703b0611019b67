import OsProjects.FileSys.Entries
import OsProjects.FileSys.File

/-!
# Taking and giving back inodes and blocks

The file system after some blocks are taken and written (`Took`), and after some
are given back (`Gave`).  Both compose, so that a loop takes or gives back a list.
-/

namespace OsProjects.FileSys
open FirstFit

lemma maxInode_eq : maxInode = 512 := rfl

lemma maxBlock_eq : maxBlock = 4096 := rfl

lemma getInodeMap_eq (s : FS) : getInodeMap s = bitAt s.inodeMap := by
  funext i
  rw [getInodeMap, getBit_eq]
  cases bitAt s.inodeMap i <;> rfl

lemma getBlockMap_eq (s : FS) : getBlockMap s = bitAt s.blockMap := by
  funext i
  rw [getBlockMap, getBit_eq]
  cases bitAt s.blockMap i <;> rfl

lemma bitAt_setInodeMap (s : FS) (i : ℤ) (value : Bool) :
    bitAt (setInodeMap s i value).inodeMap = Function.update (bitAt s.inodeMap) i value :=
  bitAt_setBit_eq s.inodeMap i value

lemma bitAt_setBlockMap (s : FS) (b : ℤ) (value : Bool) :
    bitAt (setBlockMap s b value).blockMap = Function.update (bitAt s.blockMap) b value :=
  bitAt_setBit_eq s.blockMap b value

/-! ## The counters of the superblock -/

def InodesCounted (s : FS) : Prop :=
  s.superBlock.freeInodeCount.toInt = freeCount (bitAt s.inodeMap) maxInode

def BlocksCounted (s : FS) : Prop :=
  s.superBlock.freeBlockCount.toInt = freeCount (bitAt s.blockMap) maxBlock

/-- `s'` is `s` after the free inode `i` is taken. -/
structure TookInode (s : FS) (i : Int32) (s' : FS) : Prop where
  eq : s' = { s with
    superBlock := { s.superBlock with freeInodeCount := s'.superBlock.freeInodeCount }
    inodeMap := s'.inodeMap }
  nonneg : 0 ≤ i.toInt
  lt_max : i.toInt < maxInode
  fresh : bitAt s.inodeMap i.toInt = false
  inodeMap : bitAt s'.inodeMap = Function.update (bitAt s.inodeMap) i.toInt true
  counted : InodesCounted s'

lemma getInode_took {s : FS} (hcount : InodesCounted s)
    (hfree : 1 ≤ s.superBlock.freeInodeCount.toInt) :
    ∃ i s', getInode s = (i.toInt, s') ∧ TookInode s i s' := by
  unfold InodesCounted at hcount
  obtain ⟨j, hfirst, h0, hlt, hbit⟩ := @exists_firstFree (bitAt s.inodeMap) maxInode (by omega)
  have hj : (Int32.ofInt j).toInt = j :=
    Int32.toInt_ofInt_of_le (by omega) (by rw [maxInode_eq] at hlt; omega)
  have htake := freeCount_take h0 hlt hbit
  refine ⟨Int32.ofInt j, addFreeInodes (setInodeMap s j true) (-1), ?_, ?_⟩
  · rw [hj, getInode, getInodeMap_eq, hfirst]
  · refine { eq := rfl, nonneg := hj.symm ▸ h0, lt_max := hj.symm ▸ hlt, fresh := hj.symm ▸ hbit,
             inodeMap := hj.symm ▸ bitAt_setInodeMap s j true, counted := ?_ }
    unfold InodesCounted
    change (s.superBlock.freeInodeCount + -1).toInt =
      freeCount (bitAt (setInodeMap s j true).inodeMap) maxInode
    rw [bitAt_setInodeMap, CInt.toInt_add_neg_one (by omega), hcount]
    omega

lemma freeInode_counted {s : FS} {i : ℤ} (h0 : 0 ≤ i) (hlt : i < maxInode)
    (hcount : InodesCounted s) : InodesCounted (freeInode s i) := by
  unfold freeInode
  rw [getInodeMap_eq]
  split_ifs with hbit
  · have hmax := maxInode_eq
    have hle := freeCount_le (bitAt s.inodeMap) maxInode
    have hrelease := freeCount_release h0 hlt hbit
    unfold InodesCounted at hcount ⊢
    change (s.superBlock.freeInodeCount + 1).toInt =
      freeCount (bitAt (setInodeMap s i false).inodeMap) maxInode
    rw [bitAt_setInodeMap, hrelease, CInt.toInt_add_one (by omega), hcount]
    push_cast
    rfl
  · exact hcount

lemma bitAt_freeInode {s : FS} (i j : ℤ) :
    bitAt (freeInode s i).inodeMap j = true ↔ bitAt s.inodeMap j = true ∧ j ≠ i := by
  unfold freeInode
  rw [getInodeMap_eq]
  split_ifs with hbit
  · change bitAt (setInodeMap s i false).inodeMap j = true ↔ _
    rw [bitAt_setInodeMap, Function.update_apply]
    by_cases hj : j = i
    · simp [hj]
    · simp [hj]
  · constructor
    · exact fun hj => ⟨hj, fun hji => hbit (hji ▸ hj)⟩
    · exact fun hj => hj.1

/-! ## Disk blocks -/

lemma readDiskBlock_eq {s : FS} {block : ℤ} (h0 : 0 ≤ block) (hlt : block < maxBlock)
    (buf : Block) : readDiskBlock s block buf = (s, s.disk block) :=
  if_neg (by omega)

lemma writeDiskBlock_eq {s : FS} {block : ℤ} (h0 : 0 ≤ block) (hlt : block < maxBlock)
    (buf : Block) :
    writeDiskBlock s block buf = { s with disk := Function.update s.disk block buf } :=
  if_neg (by omega)

/-! ## Taking blocks -/

/-- `s'` is `s` after the free blocks `bs` are taken and written. -/
structure Took (s : FS) (bs : List ℤ) (s' : FS) : Prop where
  eq : s' = { s with
    superBlock := { s.superBlock with freeBlockCount := s'.superBlock.freeBlockCount }
    blockMap := s'.blockMap
    disk := s'.disk }
  nodup : bs.Nodup
  free : ∀ b ∈ bs, 0 ≤ b ∧ b < maxBlock ∧ bitAt s.blockMap b = false
  used : ∀ b, bitAt s'.blockMap b = true ↔ bitAt s.blockMap b = true ∨ b ∈ bs
  disk : ∀ b, b ∉ bs → s'.disk b = s.disk b
  left : freeCount (bitAt s'.blockMap) maxBlock + bs.length = freeCount (bitAt s.blockMap) maxBlock
  counted : BlocksCounted s → BlocksCounted s'

namespace Took
variable {s s' s'' : FS} {bs cs : List ℤ}

lemma refl (s : FS) : Took s [] s where
  eq := rfl
  nodup := List.nodup_nil
  free := by simp
  used := by simp
  disk := fun _ _ => rfl
  left := by rw [List.length_nil, Nat.add_zero]
  counted := id

lemma trans (h : Took s bs s') (h' : Took s' cs s'') : Took s (bs ++ cs) s'' where
  eq := by
    have heq := h'.eq
    rw [h.eq] at heq
    exact heq
  nodup := by
    apply List.nodup_append.mpr
    refine ⟨h.nodup, h'.nodup, ?_⟩
    rintro b hb c hc rfl
    have hused := (h.used b).mpr (Or.inr hb)
    rw [(h'.free b hc).2.2] at hused
    cases hused
  free := by
    intro b hb
    rcases List.mem_append.mp hb with hb | hb
    · exact h.free b hb
    · obtain ⟨h0, hlt, hbit⟩ := h'.free b hb
      refine ⟨h0, hlt, Bool.eq_false_of_not_eq_true fun hs => ?_⟩
      rw [(h.used b).mpr (Or.inl hs)] at hbit
      cases hbit
  used := by
    intro b
    rw [h'.used, h.used, List.mem_append, or_assoc]
  disk := by
    intro b hb
    rw [List.mem_append, not_or] at hb
    rw [h'.disk b hb.2, h.disk b hb.1]
  left := by
    rw [List.length_append, ← h.left, ← h'.left]
    omega
  counted := h'.counted ∘ h.counted

lemma write {b : ℤ} (h : Took s bs s') (hb : b ∈ bs) (buf : Block) :
    Took s bs (writeDiskBlock s' b buf) := by
  obtain ⟨h0, hlt, -⟩ := h.free b hb
  rw [writeDiskBlock_eq h0 hlt]
  refine { eq := ?_, nodup := h.nodup, free := h.free, used := h.used, disk := ?_, left := h.left,
           counted := h.counted }
  · conv_lhs => rw [h.eq]
  · intro c hc
    have hne : c ≠ b := fun hcb => hc (hcb ▸ hb)
    exact (Function.update_of_ne hne ..).trans (h.disk c hc)

/-- What is in use is not overwritten. -/
lemma disk_eq (h : Took s bs s') {b : ℤ} (hb : bitAt s.blockMap b = true) :
    s'.disk b = s.disk b := by
  apply h.disk
  intro hmem
  rw [(h.free b hmem).2.2] at hb
  cases hb

end Took

lemma getBlock_took {s : FS} (hfree : 0 < freeCount (bitAt s.blockMap) maxBlock) :
    ∃ (b : ℤ) (s' : FS), getBlock s = (b, s') ∧ 0 ≤ b ∧ Took s [b] s' := by
  obtain ⟨b, hfirst, h0, hlt, hbit⟩ := exists_firstFree hfree
  refine ⟨b, addFreeBlocks (setBlockMap s b true) (-1), ?_, h0, ?_⟩
  · rw [getBlock, getBlockMap_eq, hfirst]
  · have hmap : bitAt (addFreeBlocks (setBlockMap s b true) (-1)).blockMap =
        Function.update (bitAt s.blockMap) b true := bitAt_setBlockMap s b true
    have htake := freeCount_take h0 hlt hbit
    refine { eq := rfl, nodup := List.nodup_singleton b, free := ?_, used := ?_,
             disk := fun _ _ => rfl, left := ?_, counted := ?_ }
    · intro c hc
      obtain rfl := List.mem_singleton.mp hc
      exact ⟨h0, hlt, hbit⟩
    · intro c
      rw [hmap, Function.update_apply, List.mem_singleton]
      by_cases hc : c = b
      · simp [hc]
      · simp [hc]
    · rw [hmap]
      exact htake
    · intro hcount
      unfold BlocksCounted at hcount ⊢
      rw [hmap]
      change (s.superBlock.freeBlockCount + -1).toInt = _
      rw [CInt.toInt_add_neg_one (by omega), hcount]
      omega

/-! ## Giving blocks back -/

/-- `s'` is `s` after the blocks `bs` are given back. -/
structure Gave (s : FS) (bs : List ℤ) (s' : FS) : Prop where
  eq : s' = { s with
    superBlock := { s.superBlock with freeBlockCount := s'.superBlock.freeBlockCount }
    blockMap := s'.blockMap }
  used : ∀ b, bitAt s'.blockMap b = true ↔ bitAt s.blockMap b = true ∧ b ∉ bs
  counted : BlocksCounted s → BlocksCounted s'

namespace Gave
variable {s s' s'' : FS} {bs cs : List ℤ}

lemma refl (s : FS) : Gave s [] s where
  eq := rfl
  used := by simp
  counted := id

lemma trans (h : Gave s bs s') (h' : Gave s' cs s'') : Gave s (bs ++ cs) s'' where
  eq := by
    have heq := h'.eq
    rw [h.eq] at heq
    exact heq
  used := by
    intro b
    rw [h'.used, h.used, List.mem_append, not_or, and_assoc]
  counted := h'.counted ∘ h.counted

lemma congr (h : Gave s bs s') (hmem : ∀ b, b ∈ bs ↔ b ∈ cs) : Gave s cs s' where
  eq := h.eq
  used := by
    intro b
    rw [h.used, hmem]
  counted := h.counted

end Gave

lemma freeBlock_gave {s : FS} {b : ℤ} (h0 : 0 ≤ b) (hlt : b < maxBlock) :
    Gave s [b] (freeBlock s b) := by
  unfold freeBlock
  rw [getBlockMap_eq]
  split_ifs with hbit
  · have hmap : bitAt (addFreeBlocks (setBlockMap s b false) 1).blockMap =
        Function.update (bitAt s.blockMap) b false := bitAt_setBlockMap s b false
    refine { eq := rfl, used := ?_, counted := ?_ }
    · intro c
      rw [hmap, Function.update_apply, List.mem_singleton]
      by_cases hc : c = b
      · simp [hc]
      · simp [hc]
    · intro hcount
      have hmax := maxBlock_eq
      have hle := freeCount_le (bitAt s.blockMap) maxBlock
      have hrelease := freeCount_release h0 hlt hbit
      unfold BlocksCounted at hcount ⊢
      rw [hmap, hrelease]
      change (s.superBlock.freeBlockCount + 1).toInt = _
      rw [CInt.toInt_add_one (by omega), hcount]
      push_cast
      rfl
  · refine { eq := rfl, used := ?_, counted := id }
    intro c
    rw [List.mem_singleton]
    constructor
    · exact fun hc => ⟨hc, fun hcb => hbit (hcb ▸ hc)⟩
    · exact fun hc => hc.1

lemma foldl_freeBlock_gave {bs : List ℤ} {s : FS} (h : ∀ b ∈ bs, 0 ≤ b ∧ b < maxBlock) :
    Gave s bs (bs.foldl freeBlock s) := by
  induction bs generalizing s with
  | nil => exact Gave.refl s
  | cons b bs ih =>
    obtain ⟨h0, hlt⟩ := h b List.mem_cons_self
    exact (freeBlock_gave h0 hlt).trans (ih fun c hc => h c (List.mem_cons_of_mem b hc))

end OsProjects.FileSys
