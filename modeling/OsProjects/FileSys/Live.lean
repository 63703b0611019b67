import OsProjects.FileSys.Create

/-!
# The directories of a file system

The current directory lives in memory, and its block on the disk may be out of
date.  Every other directory lives in its block.
-/

namespace OsProjects.FileSys
open Ownership

/-- The contents of the directory with that block. -/
def liveDir (s : FS) (block : ℤ) : Dentry :=
  if block = s.curDirBlock then s.curDir else Dentry.ofBlock (s.disk block)

/-- The contents of the directory `i`. -/
def dirAt (s : FS) (i : ℤ) : Dentry := liveDir s ((s.inode i).direct 0)

/-- `i` is an allocated directory. -/
def IsDir (s : FS) (i : ℤ) : Prop := Allocated s i ∧ (s.inode i).type = .directory

/-- `i` is an allocated file. -/
def IsFile (s : FS) (i : ℤ) : Prop := Allocated s i ∧ (s.inode i).type = .file

/-- The allocated directories. -/
noncomputable def dirs (s : FS) : Finset ℤ :=
  (Finset.Ico 0 (maxInode : ℤ)).filter fun i =>
    bitAt s.inodeMap i = true ∧ (s.inode i).type = .directory

/-- The number of directory entries that name `i`. -/
noncomputable def links (s : FS) (i : ℤ) : ℕ := references (dirs s) (fun d => (dirAt s d).inodes) i

/-- `d` is a directory for the inode `i`. -/
structure DirOk (s : FS) (i : ℤ) (d : Dentry) : Prop where
  count_pos : 1 ≤ d.numEntry.toInt
  count_le : d.numEntry.toInt ≤ 21
  dot : (d.entry 0).cstr = str "."
  self : (d.entry 0).inode.toInt = i
  entries : ∀ j ∈ d.inodes, Allocated s j

variable {s s' : FS} {c d i : ℤ}

lemma mem_dirs : d ∈ dirs s ↔ IsDir s d := by
  unfold dirs IsDir Allocated
  rw [Finset.mem_filter, Finset.mem_Ico]
  tauto

lemma DirOk.fits {e : Dentry} (h : DirOk s i e) : e.Fits := ⟨by linarith [h.count_pos], h.count_le⟩

lemma dirAt_current (hc : (s.inode c).direct 0 = s.curDirBlock) : dirAt s c = s.curDir := by
  rw [dirAt, liveDir, if_pos hc]

lemma IsDir.owned (h : IsDir s d) : owned s.disk (s.inode d) = [(s.inode d).direct 0] :=
  owned_directory h.2

lemma IsDir.block_mem (h : IsDir s d) :
    (s.inode d).direct 0 ∈ FileSys.owned s.disk (s.inode d) := by
  rw [h.owned]
  exact List.mem_cons_self

/-- Two directories have two blocks. -/
lemma IsDir.eq_of_block (hs : Store s) (hc : IsDir s c) (hd : IsDir s d)
    (h : (s.inode d).direct 0 = (s.inode c).direct 0) : d = c :=
  hs.separate.eq_of_mem d c _ hd.1 hc.1 hd.block_mem (h ▸ hc.block_mem)

lemma IsFile.not_isDir (h : IsFile s i) : ¬ IsDir s i := by
  intro hdir
  have htype := h.2
  rw [hdir.2] at htype
  cases htype

/-- The directories that were there and are left keep their entries, the current one apart. -/
structure KeptDirs (s s' : FS) : Prop where
  direct : ∀ d, IsDir s d → IsDir s' d → (s'.inode d).direct 0 = (s.inode d).direct 0
  curDirBlock : s'.curDirBlock = s.curDirBlock
  disk : ∀ d, IsDir s d → IsDir s' d →
    s'.disk ((s.inode d).direct 0) = s.disk ((s.inode d).direct 0)

namespace KeptDirs

lemma current (h : KeptDirs s s') (hc : IsDir s c) (hc' : IsDir s' c)
    (hcur : (s.inode c).direct 0 = s.curDirBlock) : dirAt s' c = s'.curDir :=
  dirAt_current (by rw [h.direct c hc hc', h.curDirBlock, hcur])

lemma dirAt_eq (h : KeptDirs s s') (hs : Store s) (hc : IsDir s c)
    (hcur : (s.inode c).direct 0 = s.curDirBlock) (hd : IsDir s d) (hd' : IsDir s' d)
    (hdc : d ≠ c) : dirAt s' d = dirAt s d := by
  have hne : (s.inode d).direct 0 ≠ s.curDirBlock := fun hblock =>
    hdc (IsDir.eq_of_block hs hc hd (hblock.trans hcur.symm))
  unfold dirAt liveDir
  rw [h.direct d hd hd', h.curDirBlock, if_neg hne, if_neg hne, h.disk d hd hd']

end KeptDirs

/-- The current directory may change its entries; everything else about directories stays. -/
structure SameDirs (s s' : FS) : Prop where
  isDir : ∀ d, IsDir s' d ↔ IsDir s d
  direct : ∀ d, IsDir s d → (s'.inode d).direct 0 = (s.inode d).direct 0
  curDirBlock : s'.curDirBlock = s.curDirBlock
  disk : ∀ d, IsDir s d → s'.disk ((s.inode d).direct 0) = s.disk ((s.inode d).direct 0)

namespace SameDirs

lemma dirs_eq (h : SameDirs s s') : dirs s' = dirs s := by
  ext d
  rw [mem_dirs, mem_dirs, h.isDir]

lemma kept (h : SameDirs s s') : KeptDirs s s' where
  direct := fun d hd _ => h.direct d hd
  curDirBlock := h.curDirBlock
  disk := fun d hd _ => h.disk d hd

lemma current (h : SameDirs s s') (hc : IsDir s c) (hcur : (s.inode c).direct 0 = s.curDirBlock) :
    dirAt s' c = s'.curDir :=
  h.kept.current hc ((h.isDir c).mpr hc) hcur

lemma dirAt_eq (h : SameDirs s s') (hs : Store s) (hc : IsDir s c)
    (hcur : (s.inode c).direct 0 = s.curDirBlock) (hd : IsDir s d) (hdc : d ≠ c) :
    dirAt s' d = dirAt s d :=
  h.kept.dirAt_eq hs hc hcur hd ((h.isDir d).mpr hd) hdc

/-- Only the entries of the current directory change. -/
lemma links_eq (h : SameDirs s s') (hs : Store s) (hc : IsDir s c)
    (hcur : (s.inode c).direct 0 = s.curDirBlock) (i : ℤ) :
    links s' i + s.curDir.inodes.count i = links s i + s'.curDir.inodes.count i := by
  have hrest : ∀ d ∈ dirs s, d ≠ c → (dirAt s' d).inodes = (dirAt s d).inodes := by
    intro d hd hdc
    rw [h.dirAt_eq hs hc hcur (mem_dirs.mp hd) hdc]
  unfold links
  rw [h.dirs_eq, ← h.current hc hcur, ← dirAt_current hcur]
  exact references_change (mem_dirs.mpr hc) hrest i

end SameDirs

lemma Relinked.sameDirs (h : Relinked s s') : SameDirs s s' where
  isDir := by
    intro d
    unfold IsDir
    rw [h.allocated, h.type_eq]
  direct := by
    intro d _
    rw [h.inode d]
    rfl
  curDirBlock := by rw [h.rest]
  disk := by
    intro d _
    rw [h.rest]

lemma Made.keptDirs {name : List UInt8} {i : Int32} (h : Made s name i s') (hs : Store s) :
    KeptDirs s s' where
  direct := by
    intro d hd _
    rw [h.inode_eq hd.1]
  curDirBlock := h.curDirBlock
  disk := fun d hd _ => h.disk_eq (hs.marked hd.1 hd.block_mem)

lemma Made.sameDirs {name : List UInt8} {i : Int32} (h : Made s name i s') (hs : Store s)
    (hfile : (s'.inode i.toInt).type = .file) : SameDirs s s' where
  isDir := by
    intro d
    unfold IsDir
    rw [h.allocated]
    constructor
    · rintro ⟨hd | rfl, htype⟩
      · rw [h.inode_eq hd] at htype
        exact ⟨hd, htype⟩
      · rw [hfile] at htype
        cases htype
    · rintro ⟨hd, htype⟩
      exact ⟨Or.inl hd, by rwa [h.inode_eq hd]⟩
  direct := by
    intro d hd
    rw [h.inode_eq hd.1]
  curDirBlock := h.curDirBlock
  disk := fun d hd => h.disk_eq (hs.marked hd.1 hd.block_mem)

lemma Dropped.isDir {name : List UInt8} {k : ℕ} (h : Dropped s name k i s') (d : ℤ) :
    IsDir s' d ↔ IsDir s d ∧ d ≠ i := by
  unfold IsDir
  rw [h.allocated]
  constructor
  · rintro ⟨⟨hd, hdi⟩, htype⟩
    rw [h.inode d hdi] at htype
    exact ⟨⟨hd, htype⟩, hdi⟩
  · rintro ⟨⟨hd, htype⟩, hdi⟩
    exact ⟨⟨hd, hdi⟩, by rwa [h.inode d hdi]⟩

lemma Dropped.dirs_eq {name : List UInt8} {k : ℕ} (h : Dropped s name k i s') :
    dirs s' = (dirs s).erase i := by
  ext d
  rw [mem_dirs, h.isDir, Finset.mem_erase, mem_dirs, and_comm]

lemma Dropped.keptDirs {name : List UInt8} {k : ℕ} (h : Dropped s name k i s') :
    KeptDirs s s' where
  direct := by
    intro d _ hd
    rw [h.inode_eq hd.1]
  curDirBlock := h.curDirBlock
  disk := by
    intro d _ _
    rw [h.disk]

lemma Dropped.sameDirs {name : List UInt8} {k : ℕ} (h : Dropped s name k i s')
    (hfile : (s.inode i).type = .file) : SameDirs s s' := by
  have hisDir : ∀ d, IsDir s' d ↔ IsDir s d := by
    intro d
    rw [h.isDir]
    refine and_iff_left_of_imp ?_
    rintro hd rfl
    have htype := hd.2
    rw [hfile] at htype
    cases htype
  exact { isDir := hisDir
          direct := fun d hd => h.keptDirs.direct d hd ((hisDir d).mpr hd)
          curDirBlock := h.curDirBlock
          disk := fun d _ => by rw [h.disk] }

end OsProjects.FileSys
