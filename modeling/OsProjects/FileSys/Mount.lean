import OsProjects.FileSys.Live

/-!
# A new file system

What `fs_mount` leaves behind when there is no disk file: the root directory with
its only entry, in the first free inode and the first free block.
-/

namespace OsProjects.FileSys
open FirstFit Ownership

attribute [ext] FS

/-- The blocks below are those of the superblock, the bitmaps and the inodes. -/
def firstDataBlock : ℤ := 1 + 1 + 1 + numInodeBlock

/-- A loop that sets the bits below `n`. -/
lemma bitAt_foldl_setBit (v : ℕ → Bool) (m : ℤ → Int8) (n : ℕ) (j : ℤ) :
    bitAt ((List.range n).foldl (fun m (i : ℕ) => setBit m i (if v i then 1 else 0)) m) j =
      if 0 ≤ j ∧ j < n then v j.toNat else bitAt m j := by
  induction n with
  | zero => rw [if_neg (by omega), List.range_zero, List.foldl_nil]
  | succ n ih =>
    rw [List.range_succ, List.foldl_append, List.foldl_cons, List.foldl_nil, bitAt_setBit, ih]
    by_cases hj : j = n
    · rw [if_pos hj, if_pos (by omega), hj, Int.toNat_natCast]
    · rw [if_neg hj]
      by_cases hlt : 0 ≤ j ∧ j < n
      · rw [if_pos hlt, if_pos (by omega)]
      · rw [if_neg hlt, if_neg (by omega)]

lemma bitAt_zero (j : ℤ) : bitAt (fun _ => 0) j = false := by
  unfold bitAt
  exact BitVec.getLsbD_zero

lemma bitAt_fsInit_inodeMap (j : ℤ) : bitAt fsInit.inodeMap j = false := by
  have hset := bitAt_foldl_setBit (fun _ => false) FS.zero.inodeMap (maxInode / 8) j
  simp only [Bool.false_eq_true, if_false] at hset
  unfold fsInit
  dsimp only
  rw [hset]
  split_ifs
  · rfl
  · exact bitAt_zero j

lemma bitAt_fsInit_blockMap (j : ℤ) :
    bitAt fsInit.blockMap j = true ↔ 0 ≤ j ∧ j < firstDataBlock := by
  have hset := bitAt_foldl_setBit (fun i => decide (i < 1 + 1 + 1 + numInodeBlock))
    FS.zero.blockMap (maxBlock / 8) j
  simp only [decide_eq_true_eq] at hset
  have hzero : bitAt FS.zero.blockMap j = false := bitAt_zero j
  have hmax : maxBlock / 8 = 512 := rfl
  have hnum : numInodeBlock = 128 := rfl
  unfold fsInit firstDataBlock
  dsimp only
  rw [hset, hzero, hmax, hnum]
  split_ifs with hj
  · rw [decide_eq_true_eq]
    omega
  · simp only [false_iff]
    omega

/-- The root directory of a new file system. -/
def rootDir : Dentry := ({ FS.zero.curDir with numEntry := 0 } : Dentry).add (str ".") 0

/-- A new file system: one inode and one block are taken, for the root directory. -/
structure Fresh (s : FS) : Prop where
  inodes : InodesCounted s
  blocks : BlocksCounted s
  inodeMap : ∀ j, bitAt s.inodeMap j = true ↔ j = 0
  blockMap : ∀ b, bitAt s.blockMap b = true ↔ 0 ≤ b ∧ b ≤ firstDataBlock
  type : (s.inode 0).type = .directory
  direct : (s.inode 0).direct 0 = firstDataBlock
  linkCount : (s.inode 0).linkCount = 0
  curDir : s.curDir = rootDir
  curDirBlock : s.curDirBlock = firstDataBlock
  disk : s.disk firstDataBlock = rootDir.toBlock

lemma fsInit_counted : InodesCounted fsInit ∧ BlocksCounted fsInit := by
  unfold InodesCounted BlocksCounted
  rw [freeCount_of_lt (m := 0) (Nat.zero_le _) fun i h0 => by
      rw [bitAt_fsInit_inodeMap]
      simp only [Bool.false_eq_true, false_iff]
      omega,
    freeCount_of_lt (m := 131) (by decide) fun i h0 => by
      rw [bitAt_fsInit_blockMap, firstDataBlock]
      exact and_iff_right h0]
  exact ⟨rfl, rfl⟩

lemma getInode_fsInit : ∃ s, getInode fsInit = (0, s) ∧ TookInode fsInit 0 s := by
  obtain ⟨i, s, hget, htook⟩ := getInode_took fsInit_counted.1 (by decide)
  have hfirst : firstFree (bitAt fsInit.inodeMap) maxInode 0 = some ((0 : ℕ) : ℤ) :=
    firstFree_of_lt (by decide) fun i h0 => by
      rw [bitAt_fsInit_inodeMap]
      simp only [Bool.false_eq_true, false_iff]
      omega
  have hi : i = 0 := by
    have heq := hget
    rw [getInode, getInodeMap_eq, hfirst] at heq
    exact Int32.toInt_inj.mp (congrArg Prod.fst heq).symm
  rw [hi] at hget htook
  exact ⟨s, hget, htook⟩

lemma getBlock_of_init {s : FS} (h : s.blockMap = fsInit.blockMap) :
    ∃ s', getBlock s = (firstDataBlock, s') ∧ Took s [firstDataBlock] s' := by
  have hused : ∀ i : ℤ, 0 ≤ i → (bitAt s.blockMap i = true ↔ i < (131 : ℕ)) := by
    intro i h0
    rw [h, bitAt_fsInit_blockMap, firstDataBlock]
    exact and_iff_right h0
  have hfree : 0 < freeCount (bitAt s.blockMap) maxBlock := by
    rw [freeCount_of_lt (by decide) hused]
    decide
  obtain ⟨b, s', hget, -, htook⟩ := getBlock_took hfree
  have hb : b = firstDataBlock := by
    have heq := hget
    rw [getBlock, getBlockMap_eq, firstFree_of_lt (by decide) hused] at heq
    exact (congrArg Prod.fst heq).symm
  rw [hb] at hget htook
  exact ⟨s', hget, htook⟩

lemma fsInit_inode : fsInit.inode = FS.zero.inode := by
  unfold fsInit
  dsimp only

lemma fsInit_curDir : fsInit.curDir = FS.zero.curDir := by
  unfold fsInit
  dsimp only

lemma initRoot_eq {s s₁ s₂ : FS} (hinode : getInode s = (0, s₁))
    (hblock : getBlock s₁ = (firstDataBlock, s₂)) (hcurDir : s₂.curDir = FS.zero.curDir) :
    initRoot s = { s₂ with
      inode := Function.update s₂.inode 0 { s₂.inode 0 with
        type := .directory
        size := 1
        blockCount := 1
        directBlock :=
          Function.update (s₂.inode 0).directBlock 0 (Int32.ofInt firstDataBlock) }
      curDirBlock := firstDataBlock
      curDir := rootDir
      disk := Function.update s₂.disk firstDataBlock rootDir.toBlock } := by
  unfold initRoot
  rw [hinode]
  dsimp only
  rw [hblock]
  dsimp only
  rw [hcurDir, writeDiskBlock_eq (by decide) (by decide)]
  rfl

lemma fsMountNew_fresh : Fresh fsMountNew := by
  obtain ⟨s₁, hinode, htook₁⟩ := getInode_fsInit
  have hblockMap : s₁.blockMap = fsInit.blockMap := by rw [htook₁.eq]
  obtain ⟨s₂, hblock, htook₂⟩ := getBlock_of_init hblockMap
  have hinodes : s₂.inode = FS.zero.inode := by rw [htook₂.eq, htook₁.eq, fsInit_inode]
  have hcurDir : s₂.curDir = FS.zero.curDir := by rw [htook₂.eq, htook₁.eq, fsInit_curDir]
  have hinodeMap : s₂.inodeMap = s₁.inodeMap := by rw [htook₂.eq]
  have hcount : s₂.superBlock.freeInodeCount = s₁.superBlock.freeInodeCount := by rw [htook₂.eq]
  unfold fsMountNew
  rw [initRoot_eq hinode hblock hcurDir]
  refine { inodes := ?_, blocks := ?_, inodeMap := ?_, blockMap := ?_, type := ?_, direct := ?_,
           linkCount := ?_, curDir := rfl, curDirBlock := rfl, disk := ?_ }
  · have hcounted := htook₁.counted
    unfold InodesCounted at hcounted ⊢
    dsimp only
    rw [hcount, hinodeMap, hcounted]
  · have hcounted : BlocksCounted s₁ := by
      have hinit := fsInit_counted.2
      unfold BlocksCounted at hinit ⊢
      rw [htook₁.eq]
      dsimp only
      rw [hinit]
    have hcounted' := htook₂.counted hcounted
    unfold BlocksCounted at hcounted' ⊢
    dsimp only
    rw [hcounted']
  · intro j
    dsimp only
    rw [hinodeMap, htook₁.inodeMap, Function.update_apply, bitAt_fsInit_inodeMap]
    simp
  · intro b
    dsimp only
    rw [htook₂.used, hblockMap, bitAt_fsInit_blockMap, List.mem_singleton, firstDataBlock]
    omega
  · dsimp only
    rw [Function.update_self]
  · dsimp only
    rw [Function.update_self]
    rfl
  · dsimp only
    rw [Function.update_self, hinodes]
    rfl
  · dsimp only
    rw [Function.update_self]

/-- The new file system written out. -/
def mounted : FS where
  superBlock := ⟨0x1234FFFF, 3964, 511, 0, fun _ => 0⟩
  inodeMap := fun k => if k = 0 then 1 else 0
  blockMap := fun k => if k < 0 then 0 else if k < 16 then -1 else if k = 16 then 15 else 0
  inode := Function.update FS.zero.inode 0
    ⟨.directory, 1, 1, fun i => if i = 0 then 131 else 0, 0, 0, fun _ => 0⟩
  disk := Function.update FS.zero.disk firstDataBlock rootDir.toBlock
  curDir := rootDir
  curDirBlock := firstDataBlock
  stdout := []

lemma bitAt_mounted_inodeMap (j : ℤ) : bitAt mounted.inodeMap j = true ↔ j = 0 := by
  have hone : ∀ k < 8, (1 : Int8).toBitVec.getLsbD k = true ↔ k = 0 := by decide
  unfold bitAt mounted
  dsimp only
  split_ifs with hj
  · rw [hone _ (by omega)]
    omega
  · have hzero : (0 : Int8).toBitVec.getLsbD (j % 8).toNat = false := BitVec.getLsbD_zero
    rw [hzero]
    simp only [Bool.false_eq_true, false_iff]
    omega

lemma bitAt_mounted_blockMap (j : ℤ) :
    bitAt mounted.blockMap j = true ↔ 0 ≤ j ∧ j ≤ firstDataBlock := by
  have hzero : (0 : Int8).toBitVec.getLsbD (j % 8).toNat = false := BitVec.getLsbD_zero
  have hall : ∀ k < 8, (-1 : Int8).toBitVec.getLsbD k = true := by decide
  have hlow : ∀ k < 8, (15 : Int8).toBitVec.getLsbD k = true ↔ k < 4 := by decide
  have hfirst : firstDataBlock = 131 := rfl
  unfold bitAt mounted
  dsimp only
  rw [hfirst]
  split_ifs with hneg hfull hlast
  · rw [hzero]
    simp only [Bool.false_eq_true, false_iff]
    omega
  · rw [hall _ (by omega)]
    simp only [true_iff]
    omega
  · rw [hlow _ (by omega)]
    omega
  · rw [hzero]
    simp only [Bool.false_eq_true, false_iff]
    omega

lemma fsInit_superBlock : fsInit.superBlock = ⟨0x1234FFFF, 3965, 512, 0, fun _ => 0⟩ := by
  unfold fsInit
  rfl

lemma fresh_freeCounts {s : FS} (h : Fresh s) :
    s.superBlock.freeInodeCount = 511 ∧ s.superBlock.freeBlockCount = 3964 := by
  have hinodes : freeCount (bitAt s.inodeMap) maxInode = 511 := by
    apply freeCount_of_lt (m := 1) (by decide)
    intro i h0
    rw [h.inodeMap]
    omega
  have hblocks : freeCount (bitAt s.blockMap) maxBlock = 3964 := by
    apply freeCount_of_lt (m := 132) (by decide)
    intro i h0
    rw [h.blockMap, firstDataBlock, numInodeBlock]
    omega
  have hi := h.inodes
  have hb := h.blocks
  unfold InodesCounted at hi
  unfold BlocksCounted at hb
  rw [hinodes] at hi
  rw [hblocks] at hb
  exact ⟨Int32.toInt_inj.mp hi, Int32.toInt_inj.mp hb⟩

lemma fsInit_disk : fsInit.disk = FS.zero.disk := by
  unfold fsInit
  dsimp only

lemma fsInit_stdout : fsInit.stdout = [] := by
  unfold fsInit
  dsimp only
  rfl

/-- The new file system is the one that is written out. -/
lemma fsMountNew_eq : fsMountNew = mounted := by
  have hfresh := fsMountNew_fresh
  obtain ⟨hcountI, hcountB⟩ := fresh_freeCounts hfresh
  obtain ⟨s₁, hinode, htook₁⟩ := getInode_fsInit
  have hblockMap₁ : s₁.blockMap = fsInit.blockMap := by rw [htook₁.eq]
  obtain ⟨s₂, hblock, htook₂⟩ := getBlock_of_init hblockMap₁
  have hcurDir : s₂.curDir = FS.zero.curDir := by rw [htook₂.eq, htook₁.eq, fsInit_curDir]
  have heq : fsMountNew = _ := initRoot_eq hinode hblock hcurDir
  -- the counters and the bitmaps are known from counting, not from running `fs_init`
  apply FS.ext
  · have hsuper : fsMountNew.superBlock = { fsInit.superBlock with
        freeInodeCount := fsMountNew.superBlock.freeInodeCount
        freeBlockCount := fsMountNew.superBlock.freeBlockCount } := by
      rw [heq]
      dsimp only
      rw [htook₂.eq, htook₁.eq]
    rw [hsuper, hcountI, hcountB, fsInit_superBlock]
    rfl
  · apply eq_of_bitAt
    intro j
    rw [Bool.eq_iff_iff, hfresh.inodeMap, bitAt_mounted_inodeMap]
  · apply eq_of_bitAt
    intro j
    rw [Bool.eq_iff_iff, hfresh.blockMap, bitAt_mounted_blockMap]
  · have hinodes : s₂.inode = FS.zero.inode := by rw [htook₂.eq, htook₁.eq, fsInit_inode]
    have hdirect : Function.update (FS.zero.inode 0).directBlock 0 (Int32.ofInt firstDataBlock) =
        fun i => if i = 0 then 131 else 0 := by
      funext k
      rw [Function.update_apply]
      apply if_congr Iff.rfl
      · decide
      · rfl
    rw [heq]
    dsimp only
    rw [hinodes, hdirect]
    rfl
  · have hdisk : ∀ b, b ≠ firstDataBlock → s₂.disk b = FS.zero.disk b := by
      intro b hb
      rw [htook₂.disk b (by rwa [List.mem_singleton]), htook₁.eq]
      dsimp only
      rw [fsInit_disk]
    rw [heq]
    unfold mounted
    funext b
    dsimp only
    by_cases hb : b = firstDataBlock
    · rw [hb, Function.update_self, Function.update_self]
    · rw [Function.update_of_ne hb, Function.update_of_ne hb, hdisk b hb]
  · exact hfresh.curDir
  · exact hfresh.curDirBlock
  · rw [heq]
    dsimp only
    rw [htook₂.eq, htook₁.eq]
    exact fsInit_stdout

namespace Fresh
variable {s : FS} (h : Fresh s)
include h

lemma allocated (i : ℤ) : Allocated s i ↔ i = 0 := by
  unfold Allocated
  rw [h.inodeMap]
  constructor
  · exact fun hi => hi.2.2
  · rintro rfl
    exact ⟨le_rfl, by decide, rfl⟩

lemma isDir_root : IsDir s 0 := ⟨(h.allocated 0).mpr rfl, h.type⟩

lemma owned_root : owned s.disk (s.inode 0) = [firstDataBlock] := by
  rw [h.isDir_root.owned, h.direct]

lemma marked (b : ℤ) : Marked s b ↔ 0 ≤ b ∧ b ≤ firstDataBlock := by
  unfold Marked
  rw [h.blockMap]
  have hlt : firstDataBlock < maxBlock := by decide
  omega

lemma store : Store s where
  inodes := h.inodes
  blocks := h.blocks
  files := by
    intro i hi hfile
    rw [(h.allocated i).mp hi, h.type] at hfile
    cases hfile
  separate := by
    refine { used := ?_, nodup := ?_, eq_of_mem := ?_ }
    · intro i hi b hb
      rw [(h.allocated i).mp hi, h.owned_root, List.mem_singleton] at hb
      rw [h.marked, hb]
      decide
    · intro i hi
      rw [(h.allocated i).mp hi, h.owned_root]
      exact List.nodup_singleton _
    · intro i j b hi hj _ _
      rw [(h.allocated i).mp hi, (h.allocated j).mp hj]

lemma current : (s.inode 0).direct 0 = s.curDirBlock := by rw [h.direct, h.curDirBlock]

lemma dirAt_root : dirAt s 0 = rootDir := by rw [dirAt_current h.current, h.curDir]

lemma dirOk_root : DirOk s 0 rootDir where
  count_pos := by decide
  count_le := by decide
  dot := by decide
  self := by decide
  entries := by
    intro j hj
    have hinodes : rootDir.inodes = [0] := by decide
    rw [hinodes, List.mem_singleton] at hj
    exact (h.allocated j).mpr hj

end Fresh

end OsProjects.FileSys
