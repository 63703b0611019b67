import OsProjects.FileSys.Lifetime
import OsProjects.Fsck.Walk

/-!
# The tree on an image

What the bitmaps should hold is what the root reaches through the directories.  An image
that the simulator has left is a tree, as long as no links to directories were made, and
what the root reaches there is what was allocated.
-/

namespace OsProjects.Fsck
open FileSys Worklist DirTree Ownership

/-! ## What the bitmaps should hold -/

/-- The directory as it lies on the disk. -/
def dirOf (s : FS) (x : ℤ) : Dentry := Dentry.ofBlock (s.disk ((s.inode x).direct 0))

def root (s : FS) : ℤ := s.superBlock.rootDirInode.toInt

/-- `.` and `..` -/
def isDot (e : DirectoryEntry) : Bool := command e.cstr (str ".") || command e.cstr (str "..")

/-- The inodes that the entries other than `.` and `..` name. -/
def names (s : FS) (x : ℤ) : List ℤ :=
  ((entries (dirOf s x)).filter fun e => !isDot e).map fun e => e.inode.toInt

/-- The directories entered from `x`. -/
def childDirs (s : FS) (x : ℤ) : List ℤ := children s (dirOf s x)

/-- The inode is reached from the root through directories. -/
def Reachable (s : FS) : ℤ → Prop :=
  Relation.ReflTransGen (fun x y => (s.inode x).type = .directory ∧ y ∈ names s x) (root s)

/-- The direct blocks of an inode, its indirect block and the blocks listed there. -/
def listedBlocks (disk : ℤ → Block) (n : Inode) : List ℤ :=
  (List.range (min n.blockCount.toInt.toNat 15)).map n.direct ++
    if n.blockCount.toInt > 15 then
      n.indirectBlock.toInt ::
        (List.range (n.blockCount.toInt - 15).toNat).map fun j =>
          (intOfBlock (disk n.indirectBlock.toInt) j).toInt
    else []

/-- From the root the entries other than `.` and `..` form a tree of directories, and all numbers
are in range. -/
structure TreeImage (s : FS) : Prop where
  root_range : 0 ≤ root s ∧ root s < maxInode
  root_type : (s.inode (root s)).type = .directory
  root_count : 0 < (dirOf s (root s)).count
  root_dot : ((dirOf s (root s)).entry 0).cstr = str "."
  tree : Tree (childDirs s) (root s)
  count_le : ∀ x, Reach (childDirs s) (root s) x → (dirOf s x).numEntry.toInt ≤ 21
  entry_range : ∀ x, Reach (childDirs s) (root s) x → ∀ e ∈ entries (dirOf s x),
    0 ≤ e.inode.toInt ∧ e.inode.toInt < maxInode
  dot : ∀ x, Reach (childDirs s) (root s) x → ∀ e ∈ entries (dirOf s x), e.cstr = str "." →
    e.inode.toInt = x
  dotdot : ∀ x, Reach (childDirs s) (root s) x → ∀ e ∈ entries (dirOf s x), e.cstr = str ".." →
    (x = root s ∧ e.inode.toInt = root s) ∨
      (Reach (childDirs s) (root s) e.inode.toInt ∧ x ∈ childDirs s e.inode.toInt)
  blockCount_le : ∀ i, Reachable s i → (s.inode i).blockCount.toInt ≤ 143
  block_range : ∀ i, Reachable s i → ∀ b ∈ listedBlocks s.disk (s.inode i), 0 ≤ b ∧ b < maxBlock
  dirBlock_range : ∀ x, Reach (childDirs s) (root s) x →
    0 ≤ (s.inode x).direct 0 ∧ (s.inode x).direct 0 < maxBlock

/-- The bitmaps hold the metadata blocks, and the inodes and blocks that the root reaches. -/
structure Exact (s : FS) : Prop where
  inodeMap : ∀ i : ℤ, 0 ≤ i → i < maxInode → (bitAt s.inodeMap i = true ↔ Reachable s i)
  blockMap : ∀ b : ℤ, 0 ≤ b → b < maxBlock → (bitAt s.blockMap b = true ↔
    b < firstDataBlock ∨ ∃ i, Reachable s i ∧ b ∈ listedBlocks s.disk (s.inode i))

/-! ## Directories and what they name -/

section Names
variable {s : FS} {x y i : ℤ}

lemma mem_childDirs : y ∈ childDirs s x ↔ y ∈ names s x ∧ (s.inode y).type = .directory := by
  unfold childDirs children names
  simp only [List.mem_map, List.mem_filter]
  constructor
  · rintro ⟨e, ⟨he, hchild⟩, rfl⟩
    unfold isChild at hchild
    rw [Bool.and_eq_true, decide_eq_true_eq] at hchild
    exact ⟨⟨e, ⟨he, hchild.1⟩, rfl⟩, hchild.2⟩
  · rintro ⟨⟨e, ⟨he, hdot⟩, rfl⟩, htype⟩
    refine ⟨e, ⟨he, ?_⟩, rfl⟩
    unfold isChild
    rw [Bool.and_eq_true, decide_eq_true_eq]
    exact ⟨hdot, htype⟩

lemma isDir_of_reach (h : TreeImage s) (hx : Reach (childDirs s) (root s) x) :
    (s.inode x).type = .directory := by
  cases hx with
  | refl => exact h.root_type
  | tail _ hy => exact (mem_childDirs.mp hy).2

lemma reachable_of_reach (h : TreeImage s) (hx : Reach (childDirs s) (root s) x) :
    Reachable s x := by
  induction hx with
  | refl => exact .refl
  | tail hy hz ih => exact ih.tail ⟨isDir_of_reach h hy, (mem_childDirs.mp hz).1⟩

/-- A directory that is reached is reached through directories. -/
lemma reach_of_reachable (hi : Reachable s i) (htype : (s.inode i).type = .directory) :
    Reach (childDirs s) (root s) i := by
  induction hi with
  | refl => exact .refl
  | tail _ hz ih => exact (ih hz.1).tail (mem_childDirs.mpr ⟨hz.2, htype⟩)

/-- What the entries of the directories name, `.` and `..` included, is what the root reaches. -/
lemma named_iff (h : TreeImage s) :
    (∃ x, Reach (childDirs s) (root s) x ∧ ∃ e ∈ entries (dirOf s x), i = e.inode.toInt) ↔
      Reachable s i := by
  constructor
  · rintro ⟨x, hx, e, he, rfl⟩
    cases hdot : isDot e with
    | false =>
      refine (reachable_of_reach h hx).tail ⟨isDir_of_reach h hx, ?_⟩
      exact List.mem_map.mpr ⟨e, List.mem_filter.mpr ⟨he, by rw [hdot]; rfl⟩, rfl⟩
    | true =>
      rcases (Bool.or_eq_true _ _).mp hdot with hdot | hdot
      · rw [h.dot x hx e he (command_iff.mp hdot)]
        exact reachable_of_reach h hx
      · rcases h.dotdot x hx e he (command_iff.mp hdot) with ⟨-, hroot⟩ | ⟨hparent, -⟩
        · exact hroot ▸ .refl
        · exact reachable_of_reach h hparent
  · intro hi
    rcases Relation.ReflTransGen.cases_tail hi with hroot | ⟨x, hx, hdir, hname⟩
    · -- the root is named by its own first entry
      have hmem : (dirOf s (root s)).entry 0 ∈ entries (dirOf s (root s)) :=
        List.mem_map.mpr ⟨0, List.mem_range.mpr h.root_count, rfl⟩
      refine ⟨root s, .refl, _, hmem, ?_⟩
      rw [h.dot _ .refl _ hmem h.root_dot, hroot]
    · obtain ⟨e, he, rfl⟩ := List.mem_map.mp hname
      exact ⟨x, reach_of_reachable hx hdir, e, (List.mem_filter.mp he).1, rfl⟩

end Names

lemma MapsOnly.reachable_eq {s s' : FS} (h : MapsOnly s s') : Reachable s' = Reachable s := by
  have hinode := h.inode
  have hdisk := h.disk
  have hsuper := h.superBlock
  unfold Reachable names dirOf root
  rw [hinode, hdisk, hsuper]

/-! ## Images with empty bitmaps -/

/-- The image with other bitmaps. -/
def withMaps (file : ℤ → Block) (inodeMap blockMap : Block) : ℤ → Block :=
  Function.update (Function.update file 1 inodeMap) 2 blockMap

/-- What `fs_umount` leaves, with empty bitmaps. -/
def lostImage (s : FS) : ℤ → Block :=
  withMaps (fsUmount Junk.zero s).disk (fun _ => 0) (fun _ => 0)

section LostImage
variable {s : FS} (hge : firstDataBlock ≤ s.curDirBlock) (hlt : s.curDirBlock < maxBlock)
include hge hlt

/-- The blocks of the image other than the bitmaps. -/
lemma lostImage_eq {b : ℤ} (h1 : b ≠ 1) (h2 : b ≠ 2) : lostImage s b = image Junk.zero s b := by
  unfold lostImage withMaps
  rw [Function.update_of_ne h2, Function.update_of_ne h1, fsUmount_disk _ hge hlt]

lemma lostImage_zero : lostImage s 0 = s.superBlock.toBlock := by
  have hfirst : firstDataBlock = 131 := rfl
  rw [lostImage_eq hge hlt (by decide) (by decide), image, if_neg (by omega), if_pos rfl]

lemma loaded_lost_superBlock : (loaded (lostImage s)).superBlock = s.superBlock := by
  have hblock : (loaded (lostImage s)).superBlock = SuperBlock.ofBlock (lostImage s 0) := by
    rw [loaded_eq]
    rfl
  rw [hblock, lostImage_zero hge hlt, SuperBlock.ofBlock_toBlock]

lemma loaded_lost_inode {i : ℤ} (h0 : 0 ≤ i) (hi : i < maxInode) :
    (loaded (lostImage s)).inode i = s.inode i := by
  have hmax : (maxInode : ℤ) = 512 := rfl
  have hfirst : firstDataBlock = 131 := rfl
  have hinode : (loaded (lostImage s)).inode i =
      Inode.ofBlock (lostImage s (i / 4 + 3)) (128 * (i % 4).toNat) := by
    rw [loaded_eq]
    exact if_pos ⟨h0, hi⟩
  have hsum : 4 * (i / 4 + 3 - 3) + ((i % 4).toNat : ℤ) = i := by omega
  rw [hinode, lostImage_eq hge hlt (by omega) (by omega), image, if_neg (by omega),
    if_neg (by omega), if_neg (by omega), if_neg (by omega), if_pos (by omega),
    Inode.ofBlock_inodesToBlock _ _ (by omega), hsum]

/-- The directories are read as they were written. -/
lemma dirOf_lost {x : ℤ} (h0 : 0 ≤ x) (hx : x < maxInode)
    (hblock : firstDataBlock ≤ (s.inode x).direct 0) :
    dirOf (loaded (lostImage s)) x = FileSys.dirAt s x := by
  have hfirst : firstDataBlock = 131 := rfl
  rw [dirOf, loaded_lost_inode hge hlt h0 hx, loaded_disk,
    lostImage_eq hge hlt (by omega) (by omega), image_data _ hblock, FileSys.dirAt, liveDir_eq]

lemma childDirs_lost {x : ℤ} (h0 : 0 ≤ x) (hx : x < maxInode)
    (hblock : firstDataBlock ≤ (s.inode x).direct 0) (hok : EntriesOk (FileSys.dirAt s x)) :
    childDirs (loaded (lostImage s)) x = children s (FileSys.dirAt s x) := by
  unfold childDirs children
  rw [dirOf_lost hge hlt h0 hx hblock]
  apply congrArg
  apply List.filter_congr
  intro e he
  obtain ⟨h0, hlt'⟩ := hok.2 e he
  unfold isChild readInode
  rw [loaded_lost_inode hge hlt h0 hlt']

omit hge hlt in
lemma lost_inodeMap (s : FS) : (loaded (lostImage s)).inodeMap = fun _ => 0 := by
  have hblock : lostImage s 1 = fun _ => 0 := by
    unfold lostImage withMaps
    rw [Function.update_of_ne (by decide), Function.update_self]
  have hmap : (loaded (lostImage s)).inodeMap =
      mapOfBlock (maxInode / 8) FS.zero.inodeMap fun _ => 0 := by
    rw [loaded_eq, ← hblock]
    rfl
  have hbyte : ∀ k, Block.byteAt (fun _ => 0) k = 0 := by
    intro k
    unfold Block.byteAt
    split_ifs <;> rfl
  rw [hmap]
  funext k
  unfold mapOfBlock
  rw [hbyte]
  split_ifs <;> rfl

omit hge hlt in
/-- Every bit is clear. -/
lemma countClear_lost (s : FS) : countClear (loaded (lostImage s)).inodeMap maxInode = 512 := by
  rw [lost_inodeMap]
  decide +kernel

/-- But not every inode is free. -/
lemma lost_disagrees (hcount : s.superBlock.freeInodeCount.toInt ≠ 512) :
    countersAgree (loaded (lostImage s)) = false := by
  rw [← Bool.not_eq_true, countersAgree_iff, InodesCounted, ← countClear_eq, countClear_lost,
    loaded_lost_superBlock hge hlt]
  exact fun hagree => hcount hagree.1

end LostImage

/-- A list without its front. -/
lemma filter_eq_drop {α : Type} {p : α → Bool} {n : ℕ} {l : List α}
    (hfront : ∀ k a, k < n → l[k]? = some a → p a = false)
    (hrest : ∀ k a, n ≤ k → l[k]? = some a → p a = true) : l.filter p = l.drop n := by
  conv_lhs => rw [← List.take_append_drop n l]
  rw [List.filter_append, List.filter_eq_nil_iff.mpr, List.nil_append, List.filter_eq_self]
  · intro a ha
    obtain ⟨k, hk⟩ := List.mem_iff_getElem?.mp ha
    rw [List.getElem?_drop] at hk
    exact hrest _ a (Nat.le_add_right n k) hk
  · intro a ha
    obtain ⟨k, hk⟩ := List.mem_iff_getElem?.mp ha
    obtain ⟨hlt, -⟩ := List.getElem?_eq_some_iff.mp hk
    rw [List.length_take] at hlt
    rw [List.getElem?_take, if_pos (by omega)] at hk
    rw [hfront k a (by omega) hk]
    exact Bool.false_ne_true

lemma isDot_iff (e : DirectoryEntry) : isDot e = true ↔ IsDots e.cstr := by
  unfold isDot IsDots
  rw [Bool.or_eq_true]

/-- `helper` goes over the blocks of a file. -/
lemma listedBlocks_eq_fileBlocks (disk : ℤ → Block) (n : Inode) :
    listedBlocks disk n = fileBlocks disk n := by
  have hdirect : (List.range (min n.blockCount.toInt.toNat 15)).map n.direct =
      (List.range (min 15 n.blocks)).map (dataBlock disk n) := by
    rw [min_comm]
    apply List.map_congr_left
    intro k hk
    rw [List.mem_range] at hk
    exact (dataBlock_of_lt (by omega)).symm
  have hrest : (n.blockCount.toInt - 15).toNat = n.blocks - 15 := by
    unfold Inode.blocks
    omega
  have hlarge : n.blockCount.toInt > 15 ↔ n.blocks > 15 := by
    unfold Inode.blocks
    omega
  unfold listedBlocks fileBlocks
  rw [hdirect, hrest]
  apply congrArg
  apply if_congr hlarge _ rfl
  apply congrArg
  apply List.map_congr_left
  intro k _
  exact (dataBlock_listed k).symm

/-! ## The image of an intact file system -/

/-- `m` holds the files and directories of `s`, and what it has on the disk is all there is. -/
structure Holds (s m : FS) : Prop extends SameData s m where
  onDisk : ∀ d, IsDir s d → dirOf m d = FileSys.dirAt s d

section Image
variable {s m : FS} (h : Intact s) (hm : Holds s m) {x i : ℤ}
include h hm

lemma Holds.root_eq : root m = 0 := by
  rw [root, hm.superBlock, h.rootInode]
  rfl

omit h in
lemma Holds.inode_eq (hi : Allocated s i) : m.inode i = s.inode i := hm.inode i hi.1 hi.2.1

/-- What is not `.` or `..` comes after these. -/
lemma Holds.filter_entries (hx : IsDir s x) :
    (entries (dirOf m x)).filter (fun e => !isDot e) = (entries (dirOf m x)).drop (first 0 x) := by
  rw [hm.onDisk x hx]
  have hget : ∀ k e, (entries (FileSys.dirAt s x))[k]? = some e →
      k < (FileSys.dirAt s x).count ∧ e = (FileSys.dirAt s x).entry k := by
    intro k e he
    unfold entries at he
    rw [List.getElem?_map, Option.map_eq_some_iff] at he
    obtain ⟨j, hj, rfl⟩ := he
    obtain ⟨hlt, rfl⟩ := List.getElem?_eq_some_iff.mp hj
    rw [List.length_range] at hlt
    rw [List.getElem_range]
    exact ⟨hlt, rfl⟩
  apply filter_eq_drop
  · intro k e hk he
    obtain ⟨-, rfl⟩ := hget k e he
    rw [Bool.not_eq_false', isDot_iff]
    rcases lt_first_cases hk with rfl | ⟨rfl, h0⟩
    · exact Or.inl (command_iff.mpr (h.dirOk x hx).dot)
    · exact Or.inr (command_iff.mpr (h.dotdot x hx h0))
  · intro k e hk he
    obtain ⟨hlt, rfl⟩ := hget k e he
    rw [Bool.not_eq_true', ← Bool.not_eq_true, isDot_iff]
    exact h.neat.plain x hx k hk hlt

lemma Holds.names_eq (hx : IsDir s x) : names m x = extra 0 (named s) x := by
  have hinodes : (entries (dirOf m x)).map (fun e => e.inode.toInt) = named s x := by
    rw [hm.onDisk x hx, entries, List.map_map]
    rfl
  rw [names, hm.filter_entries h hx, List.map_drop, hinodes]
  rfl

lemma Holds.childDirs_eq (hx : x ∈ dirs s) :
    childDirs m x = (extra 0 (named s) x).filter fun y => decide (y ∈ dirs s) := by
  have hx' := mem_dirs.mp hx
  have hfilter : childDirs m x =
      (names m x).filter fun y => decide ((m.inode y).type = .directory) := by
    unfold childDirs children names
    rw [List.filter_map, List.filter_filter]
    apply congrArg
    apply List.filter_congr
    intro e _
    unfold isChild
    rw [Bool.and_comm]
    rfl
  rw [hfilter, hm.names_eq h hx']
  apply List.filter_congr
  intro y hy
  have halloc := (h.dirOk x hx').entries y (List.mem_of_mem_drop hy)
  rw [hm.inode_eq halloc, decide_eq_decide, mem_dirs]
  exact (and_iff_right halloc).symm

lemma Holds.reach_iff : Reach (childDirs m) (root m) x ↔ IsDir s x := by
  rw [hm.root_eq h, h.tree.reach_iff (fun y => hm.childDirs_eq h) h.neat.connected, mem_dirs]

lemma Holds.allocated_of_reachable (hi : Reachable m i) : Allocated s i := by
  induction hi with
  | refl =>
    rw [hm.root_eq h]
    exact h.isDir_root.1
  | tail _ hstep ih =>
    obtain ⟨htype, hmem⟩ := hstep
    rw [hm.inode_eq ih] at htype
    rw [hm.names_eq h ⟨ih, htype⟩] at hmem
    exact (h.dirOk _ ⟨ih, htype⟩).entries _ (List.mem_of_mem_drop hmem)

/-- The blocks that `helper` finds are those that the inode owns. -/
lemma Holds.listedBlocks_eq (hi : Allocated s i) :
    listedBlocks m.disk (m.inode i) = owned s.disk (s.inode i) := by
  rw [hm.inode_eq hi]
  cases htype : (s.inode i).type with
  | directory =>
    have hone := h.oneBlock i htype
    rw [owned_directory htype, listedBlocks, hone]
    rfl
  | file =>
    rw [listedBlocks_eq_fileBlocks, owned_file htype]
    exact fileBlocks_congr fun hlarge => hm.file i ⟨hi, htype⟩ _ (indirectBlock_mem hlarge)

/-- Where an entry of a directory stands. -/
lemma Holds.entry_cases (hx : IsDir s x) {e : DirectoryEntry} (he : e ∈ entries (dirOf m x)) :
    e.inode.toInt ∈ named s x ∧ ((e.cstr = str "." ∧ e.inode.toInt = x) ∨
      (e.cstr = str ".." ∧ Parent 0 (named s) x e.inode.toInt) ∨ ¬ IsDots e.cstr) := by
  rw [hm.onDisk x hx] at he
  obtain ⟨k, hk, rfl⟩ := List.mem_map.mp he
  rw [List.mem_range] at hk
  have hget : (named s x)[k]? = some ((FileSys.dirAt s x).entry k).inode.toInt :=
    Dentry.getElem?_inodes hk
  refine ⟨List.mem_of_getElem? hget, ?_⟩
  by_cases hfirst : first 0 x ≤ k
  · exact Or.inr (Or.inr (h.neat.plain x hx k hfirst hk))
  · rcases lt_first_cases (not_le.mp hfirst) with rfl | ⟨rfl, h0⟩
    · exact Or.inl ⟨(h.dirOk x hx).dot, (h.dirOk x hx).self⟩
    · exact Or.inr (Or.inl ⟨h.dotdot x hx h0, h0, hget⟩)

/-- The image is a tree. -/
lemma Holds.treeImage : TreeImage m := by
  have hreach : ∀ x, Reach (childDirs m) (root m) x → IsDir s x := fun x => (hm.reach_iff h).mp
  have hroot : IsDir s (root m) := hreach _ .refl
  have hone : str "." ≠ str ".." := by decide
  refine { root_range := ⟨hroot.1.1, hroot.1.2.1⟩, root_type := ?_, root_count := ?_,
           root_dot := ?_, tree := ?_, count_le := fun x hx => ?_,
           entry_range := fun x hx e he => ?_,
           dot := fun x hx e he hdot => ?_, dotdot := fun x hx e he hdot => ?_,
           blockCount_le := fun i hi => ?_, block_range := fun i hi b hb => ?_,
           dirBlock_range := fun x hx => ?_ }
  · rw [hm.inode_eq hroot.1]
    exact hroot.2
  · have hpos := (h.dirOk _ hroot).count_pos
    rw [hm.onDisk _ hroot, Dentry.count]
    omega
  · rw [hm.onDisk _ hroot]
    exact (h.dirOk _ hroot).dot
  · rw [hm.root_eq h]
    exact h.tree.tree (fun y => hm.childDirs_eq h) h.neat.single
  · rw [hm.onDisk x (hreach x hx)]
    exact (h.dirOk x (hreach x hx)).count_le
  · have halloc := (h.dirOk x (hreach x hx)).entries _ (hm.entry_cases h (hreach x hx) he).1
    exact ⟨halloc.1, halloc.2.1⟩
  · rcases (hm.entry_cases h (hreach x hx) he).2 with ⟨-, hself⟩ | ⟨hname, -⟩ | hplain
    · exact hself
    · exact absurd (hdot.symm.trans hname) hone
    · exact absurd (Or.inl (command_iff.mpr hdot)) hplain
  · rcases (hm.entry_cases h (hreach x hx) he).2 with ⟨hname, -⟩ | ⟨-, hup⟩ | hplain
    · exact absurd (hname.symm.trans hdot) hone
    · obtain ⟨hp, hextra⟩ := h.tree.parent_spec (mem_dirs.mpr (hreach x hx)) hup
      refine Or.inr ⟨(hm.reach_iff h).mpr (mem_dirs.mp hp), ?_⟩
      rw [hm.childDirs_eq h hp, List.mem_filter, decide_eq_true_eq, mem_dirs]
      exact ⟨hextra, hreach x hx⟩
    · exact absurd (Or.inr (command_iff.mpr hdot)) hplain
  · have halloc := hm.allocated_of_reachable h hi
    rw [hm.inode_eq halloc]
    cases htype : (s.inode i).type with
    | directory =>
      rw [h.oneBlock i htype]
      decide
    | file =>
      have hok := h.store.files i halloc htype
      have hle := hok.size_le
      rw [hok.blockCount]
      omega
  · have halloc := hm.allocated_of_reachable h hi
    rw [hm.listedBlocks_eq h halloc] at hb
    have hmarked := h.store.marked halloc hb
    exact ⟨hmarked.1, hmarked.2.1⟩
  · have hd := hreach x hx
    have hmarked := h.store.marked hd.1 hd.block_mem
    rw [hm.inode_eq hd.1]
    exact ⟨hmarked.1, hmarked.2.1⟩

/-- Everything that is allocated is reached from the root. -/
lemma Holds.reachable_iff : Reachable m i ↔ Allocated s i := by
  constructor
  · exact hm.allocated_of_reachable h
  · intro hi
    cases htype : (s.inode i).type with
    | directory => exact reachable_of_reach (hm.treeImage h) ((hm.reach_iff h).mpr ⟨hi, htype⟩)
    | file =>
      have hpos := h.neat.linkPos i ⟨hi, htype⟩
      rw [h.linkCount i ⟨hi, htype⟩] at hpos
      have hnot : i ∉ dirs s := fun hmem => IsFile.not_isDir ⟨hi, htype⟩ (mem_dirs.mp hmem)
      obtain ⟨d, hd, hmem⟩ : ∃ d ∈ dirs s, i ∈ named s d := by
        by_contra hnone
        have hzero : links s i = 0 :=
          references_eq_zero fun d hd hmem => hnone ⟨d, hd, hmem⟩
        omega
      have hextra : i ∈ extra 0 (named s) d := by
        rcases h.tree.mem_names hd hmem with rfl | hup | hextra
        · exact absurd hd hnot
        · exact absurd (h.tree.parent_spec hd hup).1 hnot
        · exact hextra
      have hd' := mem_dirs.mp hd
      refine (reachable_of_reach (hm.treeImage h) ((hm.reach_iff h).mpr hd')).tail ⟨?_, ?_⟩
      · rw [hm.inode_eq hd'.1]
        exact hd'.2
      · rw [hm.names_eq h hd']
        exact hextra

/-- When the maps are exact, nothing is missing. -/
lemma Holds.same {m' : FS} (hmaps : MapsOnly m m') (hexact : Exact m') : Same s m' := by
  have hinode := hmaps.inode
  have hdisk := hmaps.disk
  have hreach := hmaps.reachable_eq
  refine { superBlock := ?_, inode := fun i h0 hlt => ?_, file := fun i hi b hb => ?_,
           dirAt := fun d hd => ?_, current := ?_, inodeMap := fun i h0 hlt => ?_,
           blockMap := fun b h0 hlt => ?_ }
  · rw [hmaps.superBlock, hm.superBlock]
  · rw [hinode, hm.inode i h0 hlt]
  · rw [hdisk, hm.file i hi b hb]
  · rw [← hm.dirAt d hd, hmaps]
    rfl
  · obtain ⟨c, hc, hcur⟩ := hm.current
    refine ⟨c, hc, ?_⟩
    rw [hmaps]
    exact hcur
  · rw [Bool.eq_iff_iff, hexact.inodeMap i h0 hlt, hreach, hm.reachable_iff h]
    exact ⟨fun hi => hi.2.2, fun hbit => ⟨h0, hlt, hbit⟩⟩
  · rw [Bool.eq_iff_iff, hexact.blockMap b h0 hlt, hreach, hinode, hdisk]
    constructor
    · rintro (hreserved | ⟨i, hi, hb⟩)
      · exact h.reserved b h0 hreserved
      · have halloc := (hm.reachable_iff h).mp hi
        rw [hm.listedBlocks_eq h halloc] at hb
        exact (h.store.marked halloc hb).2.2
    · intro hbit
      by_cases hreserved : b < firstDataBlock
      · exact Or.inl hreserved
      · obtain ⟨i, hi, hb⟩ := h.noLeak b ⟨not_lt.mp hreserved, h0, hlt, hbit⟩
        refine Or.inr ⟨i, (hm.reachable_iff h).mpr hi, ?_⟩
        rw [hm.listedBlocks_eq h hi]
        exact hb

end Image

section Runs
variable {s : FS} (h : Intact s) (junk : Junk)
include h

/-- Mounting an image with other bitmaps. -/
lemma holds_loaded {file : ℤ → Block} (hfile : ∀ b, b ≠ 1 → b ≠ 2 → file b = image junk s b) :
    Holds s (loaded file) :=
  { loaded_sameData h.mountable junk h.isDir_root hfile with
    onDisk := by
      intro d hd
      have hmarked := h.store.marked hd.1 hd.block_mem
      have hdata := loaded_sameData h.mountable junk h.isDir_root hfile
      rw [← hdata.dirAt d hd, FileSys.dirAt, liveDir_eq,
        loaded_inode_of h.mountable junk hfile hd.1.1 hd.1.2.1,
        written_loaded _ hmarked.1 hmarked.2.1, dirOf, loaded_disk,
        loaded_inode_of h.mountable junk hfile hd.1.1 hd.1.2.1] }

end Runs

end OsProjects.Fsck
