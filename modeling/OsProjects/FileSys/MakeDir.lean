import OsProjects.FileSys.Failure

/-!
# Making a directory

`dir_make` takes an inode and then a block.  The inode has been counted before, the
block has not: without a free one the directory is made all the same, with the
block number `-1`.
-/

namespace OsProjects.FileSys
open FirstFit

/-- The contents of a new directory `i` below `c`, in memory that held `junk`. -/
def newDir (junk : Junk) (i c : ℤ) : Dentry :=
  (({ junk.dir with numEntry := 0 } : Dentry).add (str ".") i).add (str "..") c

section NewDir
variable (junk : Junk) (i c : Int32)

lemma newDir_count₁ :
    (({ junk.dir with numEntry := 0 } : Dentry).add (str ".") i.toInt).count = 1 :=
  rfl

lemma newDir_numEntry : (newDir junk i.toInt c.toInt).numEntry = 2 := rfl

lemma newDir_entry_zero :
    ((newDir junk i.toInt c.toInt).entry 0).cstr = str "." ∧
      ((newDir junk i.toInt c.toInt).entry 0).inode = i := by
  unfold newDir
  rw [Dentry.add_entry (by rw [newDir_count₁]; decide) _ (by rw [newDir_count₁]; decide)]
  have hroom : ({ junk.dir with numEntry := 0 } : Dentry).count < 21 := by
    change 0 < 21
    decide
  refine ⟨Dentry.add_cstr hroom _ (by decide) (by decide), ?_⟩
  rw [show 0 = ({ junk.dir with numEntry := 0 } : Dentry).count from rfl,
    Dentry.add_entry_last hroom, Int32.ofInt_toInt]

lemma newDir_entry_one :
    ((newDir junk i.toInt c.toInt).entry 1).cstr = str ".." ∧
      ((newDir junk i.toInt c.toInt).entry 1).inode = c := by
  have hcount := newDir_count₁ junk i
  have hroom : (({ junk.dir with numEntry := 0 } : Dentry).add (str ".") i.toInt).count < 21 := by
    rw [hcount]
    decide
  have hname := @Dentry.add_cstr _ (str "..") hroom c.toInt (by decide) (by decide)
  have hlast := @Dentry.add_entry_last _ (str "..") hroom c.toInt
  rw [hcount] at hname hlast
  refine ⟨hname, ?_⟩
  unfold newDir
  rw [hlast, Int32.ofInt_toInt]

end NewDir

/-- A directory is made: an inode and a block are taken for it, it has its two entries, and the
current directory `c` has one more. -/
structure DirMade (s : FS) (name : List UInt8) (c : ℤ) (i : Int32) (b : ℤ) (s' : FS) : Prop where
  inode_free : 0 ≤ i.toInt ∧ i.toInt < maxInode ∧ bitAt s.inodeMap i.toInt = false
  block_free : firstDataBlock ≤ b ∧ b < maxBlock ∧ bitAt s.blockMap b = false
  inodeMap : bitAt s'.inodeMap = Function.update (bitAt s.inodeMap) i.toInt true
  blockMap : bitAt s'.blockMap = Function.update (bitAt s.blockMap) b true
  superBlock : s'.superBlock = { s.superBlock with
    freeInodeCount := s'.superBlock.freeInodeCount
    freeBlockCount := s'.superBlock.freeBlockCount }
  freeInodeCount : s'.superBlock.freeInodeCount.toInt = s.superBlock.freeInodeCount.toInt - 1
  freeBlockCount : s'.superBlock.freeBlockCount.toInt = s.superBlock.freeBlockCount.toInt - 1
  type : (s'.inode i.toInt).type = .directory
  direct : (s'.inode i.toInt).direct 0 = b
  linkCount : (s'.inode i.toInt).linkCount = 1
  inode : ∀ j, j ≠ i.toInt → s'.inode j = s.inode j
  numEntry : (Dentry.ofBlock (s'.disk b)).numEntry = 2
  dot : ((Dentry.ofBlock (s'.disk b)).entry 0).cstr = str "." ∧
    ((Dentry.ofBlock (s'.disk b)).entry 0).inode = i
  dotdot : ((Dentry.ofBlock (s'.disk b)).entry 1).cstr = str ".." ∧
    ((Dentry.ofBlock (s'.disk b)).entry 1).inode.toInt = c
  disk : ∀ b', b' ≠ b → s'.disk b' = s.disk b'
  count : s'.curDir.numEntry.toInt = s.curDir.numEntry.toInt + 1
  entry : (s'.curDir.entry s.curDir.count).cstr = name ∧
    (s'.curDir.entry s.curDir.count).inode = i
  entries : ∀ k, k ≠ s.curDir.count → s'.curDir.entry k = s.curDir.entry k
  curDirBlock : s'.curDirBlock = s.curDirBlock

/-- The counters are right, the blocks of the superblock, of the bitmaps and of the inodes are
marked, and the current directory `c` begins with `.` -/
structure Anchored (s : FS) (c : ℤ) : Prop where
  inodes : InodesCounted s
  blocks : BlocksCounted s
  reserved : ∀ b, 0 ≤ b → b < firstDataBlock → bitAt s.blockMap b = true
  isDir : IsDir s c
  count_pos : 1 ≤ s.curDir.numEntry.toInt
  count_le : s.curDir.numEntry.toInt ≤ 21
  dot : (s.curDir.entry 0).cstr = str "."
  self : (s.curDir.entry 0).inode.toInt = c

namespace Anchored
variable {s : FS} {c : ℤ} (h : Anchored s c)
include h

lemma fits : s.curDir.Fits := by
  have hpos := h.count_pos
  exact ⟨by omega, h.count_le⟩

lemma find_dot : s.curDir.find (str ".") = some 0 := by
  have hcount := h.count_pos
  unfold Dentry.find
  rw [List.find?_range_eq_some, List.mem_range]
  refine ⟨?_, ?_, fun j hj => absurd hj (Nat.not_lt_zero j)⟩
  · rw [h.dot]
    exact command_iff.mpr rfl
  · unfold Dentry.count
    omega

lemma search_dot : searchCurDir s (str ".") = (s.curDir.entry 0).inode.toInt := by
  unfold searchCurDir
  rw [h.find_dot]

lemma room (hfull : ¬ s.curDir.full = true) : s.curDir.count < 21 := by
  have hle := h.fits.count_le
  rw [full_iff h.fits] at hfull
  omega

end Anchored

/-! ## The run of the function -/

/-- The inode of a new directory. -/
def newDirInode (junk : Junk) (b : ℤ) : Inode :=
  { junk.inode with
    type := .directory
    size := 1
    blockCount := 1
    directBlock := Function.update junk.inode.directBlock 0 (Int32.ofInt b)
    linkCount := 1 }

/-- What happens after the checks, whatever `get_block` returns. -/
lemma dirMake_eq {s s₁ s₂ : FS} {i c : Int32} {b : ℤ} {name : List UInt8} (junk : Junk)
    (hnot : ¬ Refused s name) (hinode : getInode s = (i.toInt, s₁)) (hblock : getBlock s₁ = (b, s₂))
    (hdot : searchCurDir s₂ (str ".") = c.toInt) (hc : c.toInt ≠ -1) :
    dirMake junk name s =
      (0, { writeDiskBlock (writeInode s₂ i.toInt (newDirInode junk b)) b
              (newDir junk i.toInt c.toInt).toBlock with
            curDir := (writeDiskBlock (writeInode s₂ i.toInt (newDirInode junk b)) b
              (newDir junk i.toInt c.toInt).toBlock).curDir.add name i.toInt }) := by
  unfold Refused at hnot
  simp only [not_or, not_le, not_lt] at hnot
  obtain ⟨hd1, hd2, hfound, hfull, hfree⟩ := hnot
  have hdots : ¬ (command name (str ".") = true ∨ command name (str "..") = true) := by tauto
  have hsearch :
      searchCurDir (writeInode s₂ i.toInt (newDirInode junk b)) (str ".") = c.toInt := hdot
  unfold dirMake
  rw [if_neg hdots, if_neg (by omega), if_neg hfull, if_neg (by omega), hinode]
  dsimp only
  rw [hblock]
  dsimp only
  unfold newDirInode at hsearch ⊢
  rw [hsearch, if_neg hc]
  rfl

/-- A new inode with the one block `b`, and `b` with the two entries, make a directory. -/
lemma Made.dirMade {s s' : FS} {c : ℤ} {name : List UInt8} {i : Int32} {b : ℤ} {junk : Junk}
    (hmade : Made s name i s') (h : Anchored s c) (hne : 0 ∉ name) (hlength : name.length < 20)
    (htype : (s'.inode i.toInt).type = .directory) (hdirect : (s'.inode i.toInt).direct 0 = b)
    (hdisk : s'.disk b = (newDir junk i.toInt (s.curDir.entry 0).inode.toInt).toBlock)
    (hsuper : s'.superBlock = { s.superBlock with
      freeInodeCount := s'.superBlock.freeInodeCount
      freeBlockCount := s'.superBlock.freeBlockCount }) : DirMade s name c i b s' := by
  have howned : owned s'.disk (s'.inode i.toInt) = [b] := by rw [owned_directory htype, hdirect]
  obtain ⟨h0, hlt, hbit⟩ := hmade.free b (by rw [howned]; exact List.mem_cons_self)
  have hblockMap : bitAt s'.blockMap = Function.update (bitAt s.blockMap) b true := by
    funext b'
    rw [Bool.eq_iff_iff, hmade.used, howned, List.mem_singleton, Function.update_apply]
    by_cases hb : b' = b
    · simp [hb]
    · simp [hb]
  have htakeInode := freeCount_take hmade.nonneg hmade.lt_max hmade.fresh
  have htakeBlock := freeCount_take h0 hlt hbit
  have hinodes := h.inodes
  have hinodes' := hmade.inodes
  have hblocks := h.blocks
  have hblocks' := hmade.blocks
  unfold InodesCounted at hinodes hinodes'
  unfold BlocksCounted at hblocks hblocks'
  rw [hmade.inodeMap] at hinodes'
  rw [hblockMap] at hblocks'
  have hself := h.self
  generalize (s.curDir.entry 0).inode = c' at hdisk hself
  refine { inode_free := ⟨hmade.nonneg, hmade.lt_max, hmade.fresh⟩, block_free := ⟨?_, hlt, hbit⟩,
           inodeMap := hmade.inodeMap, blockMap := hblockMap, superBlock := hsuper,
           freeInodeCount := by omega, freeBlockCount := by omega, type := htype,
           direct := hdirect, linkCount := hmade.linkCount, inode := hmade.inode, numEntry := ?_,
           dot := ?_, dotdot := ?_, disk := ?_, count := ?_, entry := ?_, entries := ?_,
           curDirBlock := hmade.curDirBlock }
  · -- the blocks below the first data block are marked
    by_contra hbelow
    rw [h.reserved b h0 (by omega)] at hbit
    cases hbit
  · rw [hdisk, Dentry.ofBlock_toBlock]
    exact newDir_numEntry junk i c'
  · rw [hdisk, Dentry.ofBlock_toBlock]
    exact newDir_entry_zero junk i c'
  · rw [hdisk, Dentry.ofBlock_toBlock, (newDir_entry_one junk i c').2, hself]
    exact ⟨(newDir_entry_one junk i c').1, rfl⟩
  · intro b' hb'
    rw [hmade.disk b' (by rwa [howned, List.mem_singleton])]
  · rw [hmade.curDir, Dentry.add_numEntry h.count_le]
  · rw [hmade.curDir]
    refine ⟨Dentry.add_cstr hmade.room _ hne hlength, ?_⟩
    rw [Dentry.add_entry_last hmade.room, Int32.ofInt_toInt]
  · intro k hk
    rw [hmade.curDir, Dentry.add_entry hmade.room _ hk]

/-- With a block that is free the directory is made. -/
lemma dirMake_made {s : FS} {c : ℤ} (h : Anchored s c) {name : List UInt8} (hne : 0 ∉ name)
    (hlength : name.length < 20) (hnot : ¬ Refused s name)
    (hfree : 0 < s.superBlock.freeBlockCount.toInt) (junk : Junk) :
    ∃ i b s', dirMake junk name s = (0, s') ∧ Made s name i s' ∧ DirMade s name c i b s' := by
  have hroom : s.curDir.count < 21 := h.room fun hfull => hnot (by unfold Refused; tauto)
  obtain ⟨i, s₁, hget, htook₁⟩ := getInode_took h.inodes (by
    by_contra hlt
    exact hnot (Or.inr (Or.inr (Or.inr (Or.inr (by omega))))))
  have hblocks := h.blocks
  unfold BlocksCounted at hblocks
  have hblockMap₁ : s₁.blockMap = s.blockMap := by rw [htook₁.eq]
  obtain ⟨b, s₂, hget₂, h0, htook₂⟩ := getBlock_took (s := s₁) (by rw [hblockMap₁]; omega)
  obtain ⟨-, hlt, -⟩ := htook₂.free b List.mem_cons_self
  have hcurDir₂ : s₂.curDir = s.curDir := by rw [htook₂.eq, htook₁.eq]
  have hdot₂ : searchCurDir s₂ (str ".") = (s.curDir.entry 0).inode.toInt := by
    rw [← h.search_dot, searchCurDir, searchCurDir, hcurDir₂]
  have hself := h.self
  have hc0 := h.isDir.1.1
  have heq := dirMake_eq junk hnot hget hget₂ hdot₂ (by omega)
  generalize hn : newDirInode junk b = node at heq
  have hdirect : node.direct 0 = b := by
    rw [← hn]
    exact Int32.toInt_ofInt_of_le (by omega) (by rw [maxBlock_eq] at hlt; omega)
  have htype : node.type = .directory := by rw [← hn]; rfl
  have hlink : node.linkCount = 1 := by rw [← hn]; rfl
  have howned : ∀ disk, owned disk node = [b] := fun disk => by rw [owned_directory htype, hdirect]
  rw [writeDiskBlock_eq h0 hlt] at heq
  generalize hnew : newDir junk i.toInt (s.curDir.entry 0).inode.toInt = dir at heq
  -- the inode is written before the block is, which makes no difference
  generalize hs' : ({ writeInode s₂ i.toInt node with
    disk := Function.update s₂.disk b dir.toBlock
    curDir := s₂.curDir.add name i.toInt } : FS) = s'
  have hret : dirMake junk name s = (0, s') := heq.trans (by rw [← hs']; rfl)
  have hnode : s'.inode i.toInt = node := by
    rw [← hs']
    exact Function.update_self ..
  have hdisk : s'.disk b = dir.toBlock := by
    rw [← hs']
    exact Function.update_self ..
  have hcurDir : s'.curDir = s.curDir.add name i.toInt := by rw [← hs', ← hcurDir₂]
  have hmade : Made s name i s' := by
    have hwritten := htook₂.write List.mem_cons_self dir.toBlock
    rw [writeDiskBlock_eq h0 hlt] at hwritten
    generalize hs₃ : ({ s₂ with disk := Function.update s₂.disk b dir.toBlock } : FS) = s₃
      at hwritten
    have hsame : s₁ = { s₁ with curDir := s₁.curDir } := rfl
    rw [← howned s₃.disk] at hwritten
    exact made_of_took h.blocks hroom htook₁ hsame hwritten hlink hcurDir
      (by rw [← hs', ← hs₃]; rfl)
  have hsuper : s'.superBlock = { s.superBlock with
      freeInodeCount := s'.superBlock.freeInodeCount
      freeBlockCount := s'.superBlock.freeBlockCount } := by
    have hsuper₂ : s'.superBlock = s₂.superBlock := by
      rw [← hs']
      rfl
    rw [hsuper₂, htook₂.eq, htook₁.eq]
  refine ⟨i, b, s', hret, hmade, ?_⟩
  rw [← hnew] at hdisk
  refine hmade.dirMade h hne hlength ?_ ?_ hdisk hsuper
  · rw [hnode, htype]
  · rw [hnode, hdirect]

/-- Without one it returns 0 as well. -/
lemma dirMake_without_block {s : FS} {c : ℤ} (h : Anchored s c) {name : List UInt8}
    (hnot : ¬ Refused s name) (hfull : s.superBlock.freeBlockCount.toInt ≤ 0) (junk : Junk) :
    (dirMake junk name s).1 = 0 := by
  obtain ⟨i, s₁, hget, htook₁⟩ := getInode_took h.inodes (by
    by_contra hlt
    exact hnot (Or.inr (Or.inr (Or.inr (Or.inr (by omega))))))
  have hblocks := h.blocks
  unfold BlocksCounted at hblocks
  have hget₂ : getBlock s₁ = (-1, s₁) := by
    have hblockMap₁ : s₁.blockMap = s.blockMap := by rw [htook₁.eq]
    unfold getBlock
    rw [getBlockMap_eq, hblockMap₁]
    cases hfirst : firstFree (bitAt s.blockMap) maxBlock 0 with
    | none => rfl
    | some b =>
      obtain ⟨h0, hlt, hbit, -⟩ := firstFree_some hfirst
      rw [zero_add] at hlt
      have htake := freeCount_take h0 hlt hbit
      omega
  have hdot₁ : searchCurDir s₁ (str ".") = (s.curDir.entry 0).inode.toInt := by
    rw [← h.search_dot, searchCurDir, searchCurDir, htook₁.eq]
  have hself := h.self
  have hc0 := h.isDir.1.1
  rw [dirMake_eq junk hnot hget hget₂ hdot₁ (by omega)]

/-- What one may expect of `dir_make`: it makes the directory, or it fails and does nothing. -/
def AllOrNothing (s : FS) (name : List UInt8) (c : ℤ) (r : ℤ × FS) : Prop :=
  (r.1 = -1 ∧ Printed s r.2) ∨ (r.1 = 0 ∧ ∃ i b, DirMade s name c i b r.2)

/-- `dir_make` does all or nothing if it fails a check or a block is free, and only then. -/
theorem dirMake_allOrNothing_iff {s : FS} {c : ℤ} (h : Anchored s c) (junk : Junk) (name : Word) :
    AllOrNothing s name.text c (dirMake junk name.text s) ↔
      Refused s name.text ∨ 0 < s.superBlock.freeBlockCount.toInt := by
  constructor
  · intro hall
    by_contra hnot
    rw [not_or, not_lt] at hnot
    obtain ⟨hrefused, hfull⟩ := hnot
    have hret := dirMake_without_block h hrefused hfull junk
    rcases hall with ⟨hfail, -⟩ | ⟨-, i, b, hmade⟩
    · rw [hret] at hfail
      cases hfail
    · -- no block was free
      obtain ⟨hge, hlt, hbit⟩ := hmade.block_free
      have hblocks := h.blocks
      unfold BlocksCounted at hblocks
      have h0 : 0 ≤ b := le_trans (by decide) hge
      have htake := freeCount_take h0 hlt hbit
      omega
  · intro hcond
    by_cases hrefused : Refused s name.text
    · obtain ⟨s', heq, hprint⟩ := dirMake_refused hrefused junk
      rw [heq]
      exact Or.inl ⟨rfl, hprint⟩
    · have hlength := name.length_le
      obtain ⟨i, b, s', heq, -, hmade⟩ := dirMake_made h name.ne_zero (by omega) hrefused
        (hcond.resolve_left hrefused) junk
      rw [heq]
      exact Or.inr ⟨rfl, i, b, hmade⟩

lemma Fresh.anchored {s : FS} (h : Fresh s) : Anchored s 0 where
  inodes := h.inodes
  blocks := h.blocks
  reserved := fun b h0 hb => (h.blockMap b).mpr ⟨h0, hb.le⟩
  isDir := h.isDir_root
  count_pos := by
    rw [h.curDir]
    decide
  count_le := by
    rw [h.curDir]
    decide
  dot := by
    rw [h.curDir]
    decide
  self := by
    rw [h.curDir]
    decide

/-- The first directory on a new disk. -/
theorem dirMake_allOrNothing_iff_first :
    AllOrNothing mounted (str "d") 0 (dirMake Junk.zero (str "d") mounted) ↔
      Refused mounted (str "d") ∨ 0 < mounted.superBlock.freeBlockCount.toInt :=
  dirMake_allOrNothing_iff (fsMountNew_eq ▸ fsMountNew_fresh).anchored Junk.zero (Word.of "d")

/-- A file system whose blocks are all in use. -/
def fullDisk : FS :=
  { mounted with
    superBlock := { mounted.superBlock with freeBlockCount := 0 }
    blockMap := fun _ => -1 }

lemma bitAt_fullDisk (b : ℤ) : bitAt fullDisk.blockMap b = true := by
  have hall : ∀ k < 8, (-1 : Int8).toBitVec.getLsbD k = true := by decide
  exact hall _ (by omega)

lemma fullDisk_anchored : Anchored fullDisk 0 := by
  have h : Anchored mounted 0 := (fsMountNew_eq ▸ fsMountNew_fresh).anchored
  refine { inodes := h.inodes, blocks := ?_, reserved := fun b _ _ => bitAt_fullDisk b,
           isDir := h.isDir, count_pos := h.count_pos, count_le := h.count_le, dot := h.dot,
           self := h.self }
  unfold BlocksCounted
  rw [freeCount_eq_zero fun i _ _ => bitAt_fullDisk i]
  rfl

/-- On a full disk `mkdir` succeeds, without a block. -/
theorem dirMake_fullDisk : Anchored fullDisk 0 ∧
    ¬ AllOrNothing fullDisk (str "d") 0 (dirMake Junk.zero (str "d") fullDisk) := by
  refine ⟨fullDisk_anchored, ?_⟩
  rintro (⟨hret, -⟩ | ⟨-, i, b, hmade⟩)
  · revert hret
    decide +kernel
  · have hbit := hmade.block_free.2.2
    rw [bitAt_fullDisk] at hbit
    cases hbit

end OsProjects.FileSys
