import OsProjects.FileSys.Remount

/-!
# The life of a disk

A disk is mounted, used and unmounted any number of times.  What is on the disk in between
is the file system that was there before, with the root as the current directory, and the
next mount finds it.
-/

namespace OsProjects.FileSys
open FirstFit Ownership DirTree

/-! ## The same file system -/

/-- The same files and directories, whatever the bitmaps say. -/
structure SameData (s s' : FS) : Prop where
  superBlock : s'.superBlock = s.superBlock
  inode : ∀ i : ℤ, 0 ≤ i → i < maxInode → s'.inode i = s.inode i
  file : ∀ i, IsFile s i → ∀ b ∈ fileBlocks s.disk (s.inode i), s'.disk b = s.disk b
  dirAt : ∀ d, IsDir s d → dirAt s' d = dirAt s d
  current : ∃ c, IsDir s c ∧ (s.inode c).direct 0 = s'.curDirBlock

/-- The same file system, but for the place in the tree and what has been printed. -/
structure Same (s s' : FS) : Prop extends SameData s s' where
  inodeMap : ∀ i : ℤ, 0 ≤ i → i < maxInode → bitAt s'.inodeMap i = bitAt s.inodeMap i
  blockMap : ∀ b : ℤ, 0 ≤ b → b < maxBlock → bitAt s'.blockMap b = bitAt s.blockMap b

lemma freeCount_congr {used used' : ℤ → Bool} {n : ℕ}
    (h : ∀ i : ℤ, 0 ≤ i → i < n → used' i = used i) : freeCount used' n = freeCount used n := by
  unfold freeCount
  apply congrArg Finset.card
  apply Finset.filter_congr
  intro i hi
  rw [Finset.mem_Ico] at hi
  rw [h i hi.1 hi.2]

namespace Same
variable {s s' s'' : FS} (hs : Same s s')
include hs

lemma allocated (i : ℤ) : Allocated s' i ↔ Allocated s i := by
  unfold Allocated
  constructor
  · rintro ⟨h0, hlt, hbit⟩
    exact ⟨h0, hlt, by rwa [← hs.inodeMap i h0 hlt]⟩
  · rintro ⟨h0, hlt, hbit⟩
    exact ⟨h0, hlt, by rwa [hs.inodeMap i h0 hlt]⟩

lemma marked (b : ℤ) : Marked s' b ↔ Marked s b := by
  unfold Marked
  constructor
  · rintro ⟨h0, hlt, hbit⟩
    exact ⟨h0, hlt, by rwa [← hs.blockMap b h0 hlt]⟩
  · rintro ⟨h0, hlt, hbit⟩
    exact ⟨h0, hlt, by rwa [hs.blockMap b h0 hlt]⟩

lemma inode_eq {i : ℤ} (hi : Allocated s i) : s'.inode i = s.inode i := hs.inode i hi.1 hi.2.1

lemma isDir (d : ℤ) : IsDir s' d ↔ IsDir s d := by
  unfold IsDir
  rw [hs.allocated]
  exact and_congr_right fun hd => by rw [hs.inode_eq hd]

lemma isFile (i : ℤ) : IsFile s' i ↔ IsFile s i := by
  unfold IsFile
  rw [hs.allocated]
  exact and_congr_right fun hi => by rw [hs.inode_eq hi]

lemma dirs_eq : dirs s' = dirs s := by
  ext d
  rw [mem_dirs, mem_dirs, hs.isDir]

lemma named_eq : ∀ d ∈ dirs s, named s' d = named s d := by
  intro d hd
  unfold named
  rw [hs.dirAt d (mem_dirs.mp hd)]

lemma fileBlocks_eq {i : ℤ} (hi : IsFile s i) :
    fileBlocks s'.disk (s'.inode i) = fileBlocks s.disk (s.inode i) := by
  rw [hs.inode_eq hi.1]
  exact fileBlocks_congr fun hlarge => hs.file i hi _ (indirectBlock_mem hlarge)

lemma owned_eq {i : ℤ} (hi : Allocated s i) :
    owned s'.disk (s'.inode i) = owned s.disk (s.inode i) := by
  cases htype : (s.inode i).type with
  | directory => rw [hs.inode_eq hi, owned_directory htype, owned_directory htype]
  | file =>
    rw [owned_file (hs.inode_eq hi ▸ htype), owned_file htype]
    exact hs.fileBlocks_eq ⟨hi, htype⟩

lemma trans (hs' : Same s' s'') : Same s s'' where
  superBlock := hs'.superBlock.trans hs.superBlock
  inode := fun i h0 hlt => (hs'.inode i h0 hlt).trans (hs.inode i h0 hlt)
  file := by
    intro i hi b hb
    have hb' : b ∈ fileBlocks s'.disk (s'.inode i) := by
      rw [hs.fileBlocks_eq hi]
      exact hb
    exact (hs'.file i ((hs.isFile i).mpr hi) b hb').trans (hs.file i hi b hb)
  dirAt := fun d hd => (hs'.dirAt d ((hs.isDir d).mpr hd)).trans (hs.dirAt d hd)
  current := by
    obtain ⟨c, hc, hcur⟩ := hs'.current
    have hc' := (hs.isDir c).mp hc
    exact ⟨c, hc', by rw [← hs.inode_eq hc'.1, hcur]⟩
  inodeMap := fun i h0 hlt => (hs'.inodeMap i h0 hlt).trans (hs.inodeMap i h0 hlt)
  blockMap := fun b h0 hlt => (hs'.blockMap b h0 hlt).trans (hs.blockMap b h0 hlt)

lemma blocksOwned (h : Rooted s) : BlocksOwned s' where
  store := by
    refine { inodes := ?_, blocks := ?_, files := fun i hi hfile => ?_, separate := ?_ }
    · unfold InodesCounted
      rw [hs.superBlock, freeCount_congr hs.inodeMap]
      exact h.store.inodes
    · unfold BlocksCounted
      rw [hs.superBlock, freeCount_congr hs.blockMap]
      exact h.store.blocks
    · have hi' := (hs.allocated i).mp hi
      rw [hs.inode_eq hi'] at hfile ⊢
      exact h.store.files i hi' hfile
    · exact h.store.separate.congr hs.allocated (fun i hi => hs.owned_eq hi)
        fun b hb => (hs.marked b).mpr hb
  reserved := by
    intro b h0 hb
    have hlt : firstDataBlock < maxBlock := by decide
    rw [hs.blockMap b h0 (hb.trans hlt)]
    exact h.reserved b h0 hb
  data := by
    intro i hi b hb
    have hi' := (hs.allocated i).mp hi
    rw [hs.owned_eq hi'] at hb
    exact h.data i hi' b hb
  noLeak := h.noLeak.congr hs.allocated (fun i hi => hs.owned_eq hi) fun b hb =>
    ⟨hb.1, (hs.marked b).mp hb.2⟩

lemma rooted (h : Rooted s) : Rooted s' := by
  have hblocks := hs.blocksOwned h
  obtain ⟨c, hc, hcur⟩ := hs.current
  refine { store := hblocks.store, reserved := hblocks.reserved, data := hblocks.data,
           noLeak := hblocks.noLeak,
           current := ⟨c, (hs.isDir c).mpr hc, by rw [hs.inode_eq hc.1, hcur]⟩,
           dirOk := fun d hd => ?_, linkCount := fun i hi => ?_, tree := ?_,
           dotdot := fun d hd hd0 => ?_, dirLinks := fun d hd hd0 => ?_ }
  · have hd' := (hs.isDir d).mp hd
    have hok := h.dirOk d hd'
    rw [hs.dirAt d hd']
    exact { hok with entries := fun j hj => (hs.allocated j).mpr (hok.entries j hj) }
  · have hi' := (hs.isFile i).mp hi
    rw [hs.inode_eq hi'.1, h.linkCount i hi']
    unfold links
    rw [hs.dirs_eq]
    exact congrArg Nat.cast (references_congr hs.named_eq i).symm
  · rw [hs.dirs_eq]
    exact h.tree.congr hs.named_eq
  · have hd' := (hs.isDir d).mp hd
    rw [hs.dirAt d hd']
    exact h.dotdot d hd' hd0
  · have hd' := (hs.isDir d).mp hd
    rw [hs.inode_eq hd'.1, hs.dirs_eq, h.dirLinks d hd' hd0,
      references_congr fun e he => extra_congr (hs.named_eq e he)]

lemma neat (h : Rooted s) (hn : Neat s) : Neat s' where
  linkPos := by
    intro i hi
    have hi' := (hs.isFile i).mp hi
    rw [hs.inode_eq hi'.1]
    exact hn.linkPos i hi'
  connected := by
    rw [hs.dirs_eq]
    apply hn.connected.of_parent (Finset.Subset.refl (dirs s))
    intro d hd p hp
    exact ⟨(h.tree.parent_spec hd hp).1, (Parent.congr (hs.named_eq d hd)).mpr hp⟩
  single := by
    rw [hs.dirs_eq]
    intro d hd
    rw [references_congr fun e he => extra_congr (hs.named_eq e he)]
    exact hn.single d hd
  plain := by
    intro d hd
    have hd' := (hs.isDir d).mp hd
    rw [hs.dirAt d hd']
    exact hn.plain d hd'

lemma intact (h : Intact s) (hone : ∀ i, OneBlock (s'.inode i)) : Intact s' where
  toRooted := hs.rooted h.toRooted
  magic := by
    rw [hs.superBlock]
    exact h.magic
  rootInode := by
    rw [hs.superBlock]
    exact h.rootInode
  oneBlock := hone
  neat := hs.neat h.toRooted h.neat

end Same

/-! ## Unmounting and mounting -/

lemma bitAt_of_bytes {map map' : ℤ → Int8} {n : ℕ}
    (h : ∀ k : ℤ, 0 ≤ k → k < n → map' k = map k) {j : ℤ} (h0 : 0 ≤ j) (hlt : j < 8 * n) :
    bitAt map' j = bitAt map j := by
  unfold bitAt
  rw [h (j / 8) (by omega) (by omega)]

section Load
variable {s : FS} {file : ℤ → Block}

/-- The inodes behind the table are none. -/
lemma loaded_oneBlock (h : ∀ i : ℤ, 0 ≤ i → i < maxInode → OneBlock ((loaded file).inode i))
    (i : ℤ) : OneBlock ((loaded file).inode i) := by
  by_cases hi : 0 ≤ i ∧ i < maxInode
  · exact h i hi.1 hi.2
  · have hzero : (loaded file).inode i = FS.zero.inode i := by
      rw [loaded_eq]
      exact if_neg hi
    rw [hzero]
    intro hdir
    cases hdir

variable (h : Mountable s) (junk : Junk) (hroot : IsDir s 0)
  (hfile : ∀ b, b ≠ 1 → b ≠ 2 → file b = image junk s b)
include h hfile

lemma loaded_superBlock_of : (loaded file).superBlock = s.superBlock := by
  have hblock : ∀ file, (loaded file).superBlock = SuperBlock.ofBlock (file 0) := fun file => by
    rw [loaded_eq]
    rfl
  rw [← loaded_superBlock h junk, hblock, hblock, hfile 0 (by decide) (by decide)]

lemma loaded_inode_of {i : ℤ} (h0 : 0 ≤ i) (hlt : i < maxInode) :
    (loaded file).inode i = s.inode i := by
  have hinode : ∀ file, (loaded file).inode i =
      Inode.ofBlock (file (i / 4 + 3)) (128 * (i % 4).toNat) := fun file => by
    rw [loaded_eq]
    exact if_pos ⟨h0, hlt⟩
  rw [← loaded_inode h junk h0 hlt, hinode, hinode, hfile _ (by omega) (by omega)]

include hroot

/-- Whatever the bitmaps hold, mounting finds the files and directories. -/
lemma loaded_sameData : SameData s (loaded file) where
  superBlock := loaded_superBlock_of h junk hfile
  inode := fun i => loaded_inode_of h junk hfile
  file := by
    intro i hi b hb
    have hfirst : firstDataBlock = 131 := rfl
    have hge := h.data i hi.1 b (owned_file hi.2 ▸ hb)
    rw [loaded_disk, hfile b (by omega) (by omega), image_data junk hge, written,
      if_neg (h.ne_curDirBlock hi hb)]
  dirAt := by
    intro d hd
    have hfirst : firstDataBlock = 131 := rfl
    have hblock := h.marked d hd
    have hge := h.data d hd.1 _ hd.block_mem
    unfold FileSys.dirAt
    rw [liveDir_eq, liveDir_eq, loaded_inode_of h junk hfile hd.1.1 hd.1.2.1,
      written_loaded _ hblock.1 hblock.2.1, hfile _ (by omega) (by omega), image_data junk hge]
  current := by
    refine ⟨0, hroot, ?_⟩
    rw [loaded_curDirBlock, loaded_inode_of h junk hfile le_rfl (by decide)]

end Load

namespace Intact
variable {s : FS} (h : Intact s)
include h

lemma loaded_same (junk : Junk) : Same s (loaded (image junk s)) :=
  { loaded_sameData h.mountable junk h.isDir_root fun _ _ _ => rfl with
    inodeMap := by
      intro i h0 hlt
      exact bitAt_of_bytes (fun k => loaded_inodeMap h.mountable junk) h0 hlt
    blockMap := by
      intro b h0 hlt
      exact bitAt_of_bytes (fun k => loaded_blockMap h.mountable junk) h0 hlt }

/-- The magic number is found where it was written. -/
lemma fsMount_of {junk : Junk} {file : ℤ → Block}
    (hfile : ∀ b, b ≠ 1 → b ≠ 2 → file b = image junk s b) : fsMount file = some (loaded file) := by
  apply fsMount_eq
  rw [hfile 0 (by decide) (by decide), h.mountable.image_metadata junk (by decide) le_rfl,
    if_pos rfl, SuperBlock.ofBlock_toBlock, h.magic]

lemma image_eq (junk : Junk) : (fsUmount junk s).disk = image junk s := by
  obtain ⟨hge, hlt⟩ := h.mountable.curDirBlock_range
  exact fsUmount_disk junk hge hlt

end Intact

end OsProjects.FileSys
