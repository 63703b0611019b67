import OsProjects.FileSys.Image
import OsProjects.FileSys.Intact

/-!
# Unmounting and mounting again

The blocks that `fs_umount` writes are those of the metadata and that of the current
directory.  No file has one of them, and no other directory.
-/

namespace OsProjects.FileSys

/-- The image that is left: the metadata, the current directory, and for the rest what the disk
holds. -/
def image (junk : Junk) (s : FS) (b : ℤ) : Block :=
  if b = s.curDirBlock then s.curDir.toBlock
  else if b = 0 then s.superBlock.toBlock
  else if b = 1 then mapToBlock (maxInode / 8) s.inodeMap junk.mem
  else if b = 2 then mapToBlock (maxBlock / 8) s.blockMap junk.mem
  else if 3 ≤ b ∧ b < firstDataBlock then inodesToBlock s.inode (4 * (b - 3))
  else s.disk b

/-- The loop over the inode blocks writes one block after the other. -/
lemma foldl_saveInodes (s : FS) {n : ℕ} (hn : n ≤ numInodeBlock) :
    (List.range n).foldl saveInodes s =
      { s with
        disk := fun b =>
          if 3 ≤ b ∧ b < 3 + n then inodesToBlock s.inode (4 * (b - 3)) else s.disk b } := by
  have hmax : numInodeBlock = 128 := rfl
  induction n with
  | zero =>
    have hdisk : (fun b : ℤ => if 3 ≤ b ∧ b < 3 + (0 : ℕ) then inodesToBlock s.inode (4 * (b - 3))
        else s.disk b) = s.disk := by
      funext b
      rw [if_neg (by omega)]
    rw [hdisk, List.range_zero, List.foldl_nil]
  | succ n ih =>
    rw [List.range_succ, List.foldl_append, ih (by omega), List.foldl_cons, List.foldl_nil]
    unfold saveInodes
    rw [writeDiskBlock_eq (by omega) (by rw [maxBlock_eq]; omega)]
    apply FS.ext
    all_goals try rfl
    funext b
    dsimp only
    rw [Function.update_apply]
    by_cases hb : b = n + 3
    · rw [if_pos hb, if_pos (by omega), hb, add_sub_cancel_right]
    · rw [if_neg hb]
      by_cases hlow : 3 ≤ b ∧ b < 3 + n
      · rw [if_pos hlow, if_pos (by omega)]
      · rw [if_neg hlow, if_neg (by omega)]

lemma fsUmount_disk (junk : Junk) {s : FS} (hge : firstDataBlock ≤ s.curDirBlock)
    (hlt : s.curDirBlock < maxBlock) : (fsUmount junk s).disk = image junk s := by
  have hfirst : firstDataBlock = 131 := rfl
  have hnum : (numInodeBlock : ℤ) = 128 := rfl
  unfold fsUmount
  dsimp only
  rw [@writeDiskBlock_eq _ 0 (by decide) (by decide),
    @writeDiskBlock_eq _ 1 (by decide) (by decide),
    @writeDiskBlock_eq _ 2 (by decide) (by decide), foldl_saveInodes _ le_rfl,
    writeDiskBlock_eq (le_trans (by decide) hge) hlt]
  funext b
  unfold image
  dsimp only
  rw [Function.update_apply, hnum, hfirst]
  by_cases hcur : b = s.curDirBlock
  · rw [if_pos hcur, if_pos hcur]
  rw [if_neg hcur, if_neg hcur]
  by_cases hinode : 3 ≤ b ∧ b < 131
  · rw [if_pos (by omega), if_neg (by omega), if_neg (by omega), if_neg (by omega), if_pos hinode]
  rw [if_neg (by omega), if_neg hinode, Function.update_apply, Function.update_apply,
    Function.update_apply]
  by_cases h2 : b = 2
  · rw [if_pos h2, if_neg (by omega), if_neg (by omega), if_pos h2]
  by_cases h1 : b = 1
  · rw [if_neg h2, if_pos h1, if_neg (by omega), if_pos h1]
  · rw [if_neg h2, if_neg h1, if_neg h1, if_neg h2]

/-- The loop over the inode blocks reads one block after the other. -/
lemma foldl_loadInodes (s : FS) {n : ℕ} (hn : n ≤ numInodeBlock) :
    (List.range n).foldl loadInodes s =
      { s with
        inode := fun j =>
          if 0 ≤ j ∧ j < 4 * n then Inode.ofBlock (s.disk (j / 4 + 3)) (128 * (j % 4).toNat)
          else s.inode j } := by
  have hmax : numInodeBlock = 128 := rfl
  induction n with
  | zero =>
    have hinode : (fun j : ℤ => if 0 ≤ j ∧ j < 4 * (0 : ℕ) then
        Inode.ofBlock (s.disk (j / 4 + 3)) (128 * (j % 4).toNat) else s.inode j) = s.inode := by
      funext j
      rw [if_neg (by omega)]
    rw [hinode, List.range_zero, List.foldl_nil]
  | succ n ih =>
    rw [List.range_succ, List.foldl_append, ih (by omega), List.foldl_cons, List.foldl_nil]
    unfold loadInodes
    rw [readDiskBlock_eq (by omega) (by rw [maxBlock_eq]; omega)]
    apply FS.ext
    all_goals try rfl
    funext j
    dsimp only
    by_cases hnew : 4 * (n : ℤ) ≤ j ∧ j < 4 * n + 4
    · have hdiv : j / 4 + 3 = n + 3 := by omega
      have hmod : (j % 4).toNat = (j - 4 * n).toNat := by omega
      rw [if_pos hnew, if_pos (by omega), hdiv, hmod]
    · rw [if_neg hnew]
      by_cases hold : 0 ≤ j ∧ j < 4 * n
      · rw [if_pos hold, if_pos (by omega)]
      · rw [if_neg hold, if_neg (by omega)]

/-- The file system that is mounted from a file, before the directory is read. -/
def loadedInodes (file : ℤ → Block) : FS :=
  let inode := fun j : ℤ =>
    if 0 ≤ j ∧ j < maxInode then Inode.ofBlock (file (j / 4 + 3)) (128 * (j % 4).toNat)
    else FS.zero.inode j
  { FS.zero with
    superBlock := SuperBlock.ofBlock (file 0)
    inodeMap := mapOfBlock (maxInode / 8) FS.zero.inodeMap (file 1)
    blockMap := mapOfBlock (maxBlock / 8) FS.zero.blockMap (file 2)
    inode := inode
    disk := file
    curDirBlock := (inode 0).direct 0 }

def loaded (file : ℤ → Block) : FS :=
  let s := loadedInodes file
  let (s, block) := readDiskBlock s s.curDirBlock s.curDir.toBlock
  { s with curDir := Dentry.ofBlock block }

/-- Reading the directory leaves the rest as it is. -/
lemma loaded_eq (file : ℤ → Block) :
    loaded file = { loadedInodes file with
      curDir := (loaded file).curDir
      stdout := (loaded file).stdout } := by
  unfold loaded
  dsimp only
  rw [Printed.readDiskBlock (loadedInodes file) (loadedInodes file).curDirBlock
    (loadedInodes file).curDir.toBlock]

lemma fsMount_eq {file : ℤ → Block}
    (hmagic : (SuperBlock.ofBlock (file 0)).magicNumber = 0x1234FFFF) :
    fsMount file = some (loaded file) := by
  have hnot : ¬ (SuperBlock.ofBlock (file 0)).magicNumber ≠ 0x1234FFFF := not_not.mpr hmagic
  have hmax : (4 : ℤ) * (numInodeBlock : ℕ) = maxInode := rfl
  unfold fsMount
  dsimp only
  rw [@readDiskBlock_eq _ 0 (by decide) (by decide)]
  dsimp only
  rw [if_neg hnot, @readDiskBlock_eq _ 1 (by decide) (by decide)]
  dsimp only
  rw [@readDiskBlock_eq _ 2 (by decide) (by decide)]
  dsimp only
  rw [foldl_loadInodes _ le_rfl, hmax]
  rfl

/-! ## The round trip -/

lemma image_data (junk : Junk) {b : ℤ} (hb : firstDataBlock ≤ b) :
    image junk s b = written s b := by
  have hfirst : firstDataBlock = 131 := rfl
  unfold image written
  split_ifs
  · rfl
  · omega
  · omega
  · omega
  · omega
  · rfl

/-- What `fs_umount` relies on: no block of a file or a directory is one of the metadata, none is
owned twice, and the current directory is one of the directories. -/
structure Mountable (s : FS) : Prop extends DirsOwned s where
  magic : s.superBlock.magicNumber = 0x1234FFFF
  data : ∀ i, Allocated s i → ∀ b ∈ owned s.disk (s.inode i), firstDataBlock ≤ b

namespace Mountable
variable {s : FS} (h : Mountable s)
include h

lemma curDirBlock_range : firstDataBlock ≤ s.curDirBlock ∧ s.curDirBlock < maxBlock := by
  obtain ⟨c, hc, hcur⟩ := h.current
  rw [← hcur]
  exact ⟨h.data c hc.1 _ hc.block_mem, (h.marked c hc).2.1⟩

lemma image_metadata (junk : Junk) {b : ℤ} (hb : b < firstDataBlock) (hb0 : 0 ≤ b) :
    image junk s b =
      if b = 0 then s.superBlock.toBlock
      else if b = 1 then mapToBlock (maxInode / 8) s.inodeMap junk.mem
      else if b = 2 then mapToBlock (maxBlock / 8) s.blockMap junk.mem
      else inodesToBlock s.inode (4 * (b - 3)) := by
  have hrange := h.curDirBlock_range.1
  unfold image
  rw [if_neg (by omega)]
  split_ifs with h0 h1 h2 h3
  · rfl
  · rfl
  · rfl
  · rfl
  · exact absurd ⟨by omega, hb⟩ h3

end Mountable

section Loaded
variable {s : FS} (h : Mountable s) (junk : Junk)
include h

lemma loaded_inode {i : ℤ} (h0 : 0 ≤ i) (hlt : i < maxInode) :
    (loaded (image junk s)).inode i = s.inode i := by
  have hmax : (maxInode : ℤ) = 512 := rfl
  have hfirst : firstDataBlock = 131 := rfl
  have hinode : (loaded (image junk s)).inode i =
      Inode.ofBlock (image junk s (i / 4 + 3)) (128 * (i % 4).toNat) := by
    rw [loaded_eq]
    exact if_pos ⟨h0, hlt⟩
  have hsum : 4 * (i / 4 + 3 - 3) + ((i % 4).toNat : ℤ) = i := by omega
  rw [hinode, h.image_metadata junk (by omega) (by omega), if_neg (by omega), if_neg (by omega),
    if_neg (by omega), Inode.ofBlock_inodesToBlock _ _ (by omega), hsum]

lemma loaded_superBlock : (loaded (image junk s)).superBlock = s.superBlock := by
  have hblock : (loaded (image junk s)).superBlock = SuperBlock.ofBlock (image junk s 0) := by
    rw [loaded_eq]
    rfl
  rw [hblock, h.image_metadata junk (by decide) le_rfl, if_pos rfl, SuperBlock.ofBlock_toBlock]

lemma loaded_inodeMap {k : ℤ} (h0 : 0 ≤ k) (hlt : k < (maxInode / 8 : ℕ)) :
    (loaded (image junk s)).inodeMap k = s.inodeMap k := by
  have hmap : (loaded (image junk s)).inodeMap =
      mapOfBlock (maxInode / 8) FS.zero.inodeMap (image junk s 1) := by
    rw [loaded_eq]
    rfl
  rw [hmap, h.image_metadata junk (by decide) (by decide), if_neg (by decide), if_pos rfl]
  exact mapOfBlock_mapToBlock (by decide) _ _ _ h0 hlt

lemma loaded_blockMap {k : ℤ} (h0 : 0 ≤ k) (hlt : k < (maxBlock / 8 : ℕ)) :
    (loaded (image junk s)).blockMap k = s.blockMap k := by
  have hmap : (loaded (image junk s)).blockMap =
      mapOfBlock (maxBlock / 8) FS.zero.blockMap (image junk s 2) := by
    rw [loaded_eq]
    rfl
  rw [hmap, h.image_metadata junk (by decide) (by decide), if_neg (by decide), if_neg (by decide),
    if_pos rfl]
  exact mapOfBlock_mapToBlock (by decide) _ _ _ h0 hlt

end Loaded

lemma loaded_disk (file : ℤ → Block) : (loaded file).disk = file := by
  rw [loaded_eq]
  rfl

/-- The directory that is read is that of inode 0. -/
lemma loaded_curDirBlock (file : ℤ → Block) :
    (loaded file).curDirBlock = ((loaded file).inode 0).direct 0 := by
  rw [loaded_eq]
  rfl

/-- Right after mounting nothing has to be written back. -/
lemma written_loaded (file : ℤ → Block) {b : ℤ} (h0 : 0 ≤ b) (hlt : b < maxBlock) :
    written (loaded file) b = file b := by
  unfold written
  split_ifs with hb
  · have hblock : b = (loadedInodes file).curDirBlock := by
      rw [hb, loaded_eq]
    have hcurDir : (loaded file).curDir = Dentry.ofBlock (file b) := by
      unfold loaded
      rw [hblock] at h0 hlt ⊢
      dsimp only
      rw [readDiskBlock_eq h0 hlt]
      rfl
    rw [hcurDir, Dentry.toBlock_ofBlock]
  · rw [loaded_disk]

/-- Unmounting and mounting again gives back the file system, with the root as the current
directory. -/
theorem umount_mount {s : FS} (h : Mountable s) (junk : Junk) :
    ∃ s', fsMount (fsUmount junk s).disk = some s' ∧ s'.superBlock = s.superBlock ∧
      (∀ k : ℤ, 0 ≤ k → k < (maxInode / 8 : ℕ) → s'.inodeMap k = s.inodeMap k) ∧
      (∀ k : ℤ, 0 ≤ k → k < (maxBlock / 8 : ℕ) → s'.blockMap k = s.blockMap k) ∧
      (∀ i : ℤ, 0 ≤ i → i < maxInode → s'.inode i = s.inode i) ∧
      (∀ i, IsFile s i → fileBlocks s'.disk (s'.inode i) = fileBlocks s.disk (s.inode i) ∧
        ∀ b ∈ fileBlocks s.disk (s.inode i), s'.disk b = s.disk b) ∧
      (∀ d, IsDir s d → dirAt s' d = dirAt s d) ∧
      s'.curDirBlock = (s.inode 0).direct 0 ∧ (IsDir s 0 → s'.curDir = dirAt s 0) := by
  obtain ⟨hge, hlt⟩ := h.curDirBlock_range
  have hmagic : (SuperBlock.ofBlock (image junk s 0)).magicNumber = 0x1234FFFF := by
    rw [h.image_metadata junk (by decide) le_rfl, if_pos rfl, SuperBlock.ofBlock_toBlock, h.magic]
  have hinode := fun i => @loaded_inode s h junk i
  have hdirAt : ∀ d, IsDir s d → dirAt (loaded (image junk s)) d = dirAt s d := by
    intro d hd
    have hblock := h.marked d hd
    unfold dirAt
    rw [liveDir_eq, liveDir_eq, hinode d hd.1.1 hd.1.2.1, written_loaded _ hblock.1 hblock.2.1,
      image_data junk (h.data d hd.1 _ hd.block_mem)]
  have hcurDirBlock : (loaded (image junk s)).curDirBlock = (s.inode 0).direct 0 := by
    rw [loaded_curDirBlock, hinode 0 le_rfl (by decide)]
  rw [fsUmount_disk junk hge hlt]
  refine ⟨loaded (image junk s), fsMount_eq hmagic, loaded_superBlock h junk,
    fun k => loaded_inodeMap h junk, fun k => loaded_blockMap h junk, hinode, fun i hi => ?_,
    hdirAt, hcurDirBlock, fun hroot => ?_⟩
  · -- a block of a file is neither one of the metadata nor that of the current directory
    have hdata :
        ∀ b ∈ fileBlocks s.disk (s.inode i), (loaded (image junk s)).disk b = s.disk b := by
      intro b hb
      rw [loaded_disk, image_data junk (h.data i hi.1 b (owned_file hi.2 ▸ hb)), written,
        if_neg (h.ne_curDirBlock hi hb)]
    refine ⟨?_, hdata⟩
    rw [hinode i hi.1.1 hi.1.2.1]
    exact fileBlocks_congr fun hlarge => hdata _ (indirectBlock_mem hlarge)
  · rw [← hdirAt 0 hroot]
    exact (dirAt_current (by rw [hcurDirBlock, hinode 0 le_rfl (by decide)])).symm

lemma Intact.mountable {s : FS} (h : Intact s) : Mountable s :=
  { h.store.dirsOwned h.current with
    magic := h.magic
    data := h.data }

/-- Unmounted in a directory with a large file. -/
theorem umount_mount_nested : ∃ s', fsMount (fsUmount Junk.zero nested).disk = some s' ∧
    s'.inode 2 = nested.inode 2 ∧ (fileBlocks s'.disk (s'.inode 2)).length = 17 ∧
      (∀ b ∈ fileBlocks nested.disk (nested.inode 2), s'.disk b = nested.disk b) ∧
        dirAt s' 1 = dirAt nested 1 ∧ s'.curDirBlock ≠ nested.curDirBlock ∧
          s'.curDir = dirAt nested 0 := by
  obtain ⟨s', hmount, -, -, -, hinode, hfile, hdir, hblock, hcurDir⟩ :=
    umount_mount nested_intact.mountable Junk.zero
  obtain ⟨hblocks, hdata⟩ := hfile 2 nested_isFile
  refine ⟨s', hmount, hinode 2 (by decide) (by decide), ?_, hdata, hdir 1 nested_isDir, ?_,
    hcurDir nested_intact.isDir_root⟩
  · rw [hblocks, nested_inodes.2.2.1]
  · rw [hblock]
    exact nested_current.2.symm

end OsProjects.FileSys
