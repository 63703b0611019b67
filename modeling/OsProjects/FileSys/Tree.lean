import OsProjects.FileSys.Rooted

/-!
# The commands on directories

`mkdir` with a free block adds a leaf to the tree of directories, `rmdir` takes one away
or a link to one, and `cd` only moves.  What none of them checks is whether the directory
that `rmdir` takes away is the root.
-/

namespace OsProjects.FileSys
open Ownership DirTree

/-! ## `mkdir` -/

section MakeDir
variable {s s' : FS} {c b : ℤ} {i : Int32} {name : List UInt8} (h : Rooted s) (hc : IsDir s c)
  (hcur : (s.inode c).direct 0 = s.curDirBlock) (hmade : Made s name i s')
  (hdir : DirMade s name c i b s')

include hmade hdir in
lemma DirMade.isDir (d : ℤ) : IsDir s' d ↔ IsDir s d ∨ d = i.toInt := by
  unfold IsDir
  rw [hmade.allocated]
  constructor
  · rintro ⟨hd | hd, htype⟩
    · rw [hmade.inode_eq hd] at htype
      exact Or.inl ⟨hd, htype⟩
    · exact Or.inr hd
  · rintro (⟨hd, htype⟩ | rfl)
    · exact ⟨Or.inl hd, by rwa [hmade.inode_eq hd]⟩
    · exact ⟨Or.inr rfl, hdir.type⟩

include hmade hdir in
lemma DirMade.dirs_eq : dirs s' = insert i.toInt (dirs s) := by
  ext d
  rw [mem_dirs, hdir.isDir hmade, Finset.mem_insert, mem_dirs, or_comm]

include h hc hcur hdir in
/-- The new directory is not the current one. -/
lemma DirMade.dirAt_new : dirAt s' i.toInt = Dentry.ofBlock (s'.disk b) := by
  have hne : b ≠ s'.curDirBlock := by
    rintro rfl
    have hbit := hdir.block_free.2.2
    have hmarked := (h.store.marked hc.1 hc.block_mem).2.2
    rw [hcur, ← hdir.curDirBlock, hbit] at hmarked
    cases hmarked
  rw [dirAt, liveDir, hdir.direct, if_neg hne]

include h hc hcur hdir in
lemma DirMade.named_new : named s' i.toInt = [i.toInt, c] := by
  have hcount : (dirAt s' i.toInt).count = 2 := by
    rw [hdir.dirAt_new h hc hcur, Dentry.count, hdir.numEntry]
    rfl
  unfold named Dentry.inodes
  rw [hcount, hdir.dirAt_new h hc hcur]
  show [((Dentry.ofBlock (s'.disk b)).entry 0).inode.toInt,
    ((Dentry.ofBlock (s'.disk b)).entry 1).inode.toInt] = _
  rw [hdir.dot.2, hdir.dotdot.2]

include h hc hcur hmade hdir

lemma DirMade.named_current : named s' c = named s c ++ [i.toInt] := by
  have hc' := (hdir.isDir hmade c).mpr (Or.inl hc)
  rw [named, (hmade.keptDirs h.store).current hc hc' hcur,
    hmade.inodes_eq (h.dirOk_current hc hcur).fits, FileSys.named_current hcur]

lemma DirMade.dirAt_eq {d : ℤ} (hd : IsDir s d) (hdc : d ≠ c) : dirAt s' d = dirAt s d :=
  (hmade.keptDirs h.store).dirAt_eq h.store hc hcur hd
    ((hdir.isDir hmade d).mpr (Or.inl hd)) hdc

lemma DirMade.named_rest : ∀ d ∈ dirs s, d ≠ c → named s' d = named s d := by
  intro d hd hdc
  unfold named
  rw [hdir.dirAt_eq h hc hcur hmade (mem_dirs.mp hd) hdc]

/-- No file is named more or less often than before. -/
lemma DirMade.links_eq {j : ℤ} (hji : j ≠ i.toInt) (hjc : j ≠ c) : links s' j = links s j := by
  have hnew : i.toInt ∉ dirs s := fun hi => hmade.not_allocated (mem_dirs.mp hi).1
  have hchange : references (dirs s) (named s') j + (named s c).count j =
      references (dirs s) (named s) j + (named s' c).count j :=
    references_change (mem_dirs.mpr hc) (hdir.named_rest h hc hcur hmade) j
  have hnone : (named s' i.toInt).count j = 0 := by
    rw [hdir.named_new h hc hcur]
    apply List.count_eq_zero_of_not_mem
    simp [hji, hjc]
  have hsplit : links s' j = (named s' i.toInt).count j + references (dirs s) (named s') j := by
    unfold links
    rw [hdir.dirs_eq hmade, references, Finset.sum_insert hnew]
    rfl
  have hlinks : links s j = references (dirs s) (named s) j := rfl
  rw [hdir.named_current h hc hcur hmade, List.count_append, List.count_singleton,
    if_neg (by simpa using hji.symm)] at hchange
  omega

lemma DirMade.consistent : Consistent s' := by
  have hok := h.dirOk_current hc hcur
  have hisDir := hdir.isDir hmade
  have hc' := (hisDir c).mpr (Or.inl hc)
  have hkept := hmade.keptDirs h.store
  have hblocks : BlocksOwned s' := h.blocksOwned.make hmade fun hfile => by
    rw [hdir.type] at hfile
    cases hfile
  have hold : ∀ d, IsDir s d → ∀ j ∈ (dirAt s d).inodes, Allocated s' j := fun d hd j hj =>
    (hmade.allocated j).mpr (Or.inl ((h.dirOk d hd).entries j hj))
  have hi : Allocated s' i.toInt := (hmade.allocated _).mpr (Or.inr rfl)
  refine { store := hblocks.store, reserved := hblocks.reserved, data := hblocks.data,
           noLeak := hblocks.noLeak, current := ⟨c, hc', ?_⟩, dirOk := fun d hd => ?_,
           linkCount := fun j hj => ?_ }
  · rw [hkept.direct c hc hc', hkept.curDirBlock, hcur]
  -- a directory is the current one, another old one, or the new one
  · rcases (hisDir d).mp hd with hd | rfl
    · by_cases hdc : d = c
      · rw [hdc, hkept.current hc hc' hcur, hmade.curDir]
        refine hok.add hmade.room i fun j hj => ?_
        rcases List.mem_append.mp hj with hj | hj
        · rw [← dirAt_current hcur] at hj
          exact hold c hc j hj
        · rwa [List.mem_singleton.mp hj]
      · rw [hdir.dirAt_eq h hc hcur hmade hd hdc]
        exact { h.dirOk d hd with entries := hold d hd }
    · have hnamed := hdir.named_new h hc hcur
      have hat := hdir.dirAt_new h hc hcur
      unfold named at hnamed
      refine { count_pos := ?_, count_le := ?_, dot := ?_, self := ?_, entries := ?_ }
      · rw [hat, hdir.numEntry]
        decide
      · rw [hat, hdir.numEntry]
        decide
      · rw [hat]
        exact hdir.dot.1
      · rw [hat, hdir.dot.2]
      · intro j hj
        rw [hnamed, List.mem_pair] at hj
        rcases hj with rfl | rfl
        · exact hi
        · exact hc'.1
  · have hji : j ≠ i.toInt := by
      rintro rfl
      exact hj.not_isDir ((hisDir _).mpr (Or.inr rfl))
    have hjc : j ≠ c := by
      rintro rfl
      exact hj.not_isDir hc'
    have hj' : IsFile s j :=
      ⟨((hmade.allocated j).mp hj.1).resolve_right hji, by rw [← hmade.inode j hji, hj.2]⟩
    rw [hmade.inode j hji, h.linkCount j hj', hdir.links_eq h hc hcur hmade hji hjc]

lemma DirMade.rooted : Rooted s' := by
  have hmem := mem_dirs.mpr hc
  have hdirs := hdir.dirs_eq hmade
  have hi : i.toInt ∉ dirs s := fun hi => hmade.not_allocated (mem_dirs.mp hi).1
  have hfresh : ∀ d ∈ dirs s, i.toInt ∉ named s d := fun d hd hmem =>
    hmade.not_allocated ((h.dirOk d (mem_dirs.mp hd)).entries _ hmem)
  have hnew := hdir.named_new h hc hcur
  have hnames := hdir.named_current h hc hcur hmade
  have hrest := hdir.named_rest h hc hcur hmade
  refine { toConsistent := hdir.consistent h hc hcur hmade, tree := ?_,
           dotdot := fun d hd hd0 => ?_, dirLinks := fun d hd hd0 => ?_ }
  · rw [hdirs]
    exact h.tree.make hmem hi hfresh hnew hnames hrest
  · rcases (hdir.isDir hmade d).mp hd with hd | rfl
    · by_cases hdc : d = c
      · subst hdc
        have hle := h.first_le_count hd hcur
        unfold first at hle
        rw [if_neg hd0] at hle
        have hd' := (hdir.isDir hmade d).mpr (Or.inl hd)
        rw [(hmade.keptDirs h.store).current hd hd' hcur, hmade.curDir,
          Dentry.add_entry hmade.room _ (by omega), ← dirAt_current hcur]
        exact h.dotdot d hd hd0
      · rw [hdir.dirAt_eq h hc hcur hmade hd hdc]
        exact h.dotdot d hd hd0
    · rw [hdir.dirAt_new h hc hcur]
      exact hdir.dotdot.1
  · rw [hdirs, h.tree.references_make hmem hi hnew hnames hrest]
    rcases (hdir.isDir hmade d).mp hd with hd | rfl
    · have hdi : d ≠ i.toInt := fun hdi => hi (hdi ▸ mem_dirs.mpr hd)
      rw [hmade.inode d hdi, h.dirLinks d hd hd0, if_neg hdi, Nat.add_zero]
    · have hzero : references (dirs s) (extra 0 (named s)) i.toInt = 0 :=
        references_eq_zero fun d hd hmem => hfresh d hd (List.mem_of_mem_drop hmem)
      rw [hzero, if_pos rfl, hdir.linkCount]
      rfl

end MakeDir

/-! ## `rmdir` -/

lemma toInt_linkCount_sub {s : FS} (h : Rooted s) {i : ℤ} (hi : IsDir s i) (h0 : i ≠ 0) :
    ((s.inode i).linkCount - 1).toInt = references (dirs s) (extra 0 (named s)) i - 1 := by
  have hle := h.linkCount_le hi h0
  rw [CInt.toInt_sub_one (by omega), h.dirLinks i hi h0]

section RemoveDir
variable {s s' : FS} {c i : ℤ} {name : List UInt8} {k : ℕ} (h : Rooted s) (hc : IsDir s c)
  (hcur : (s.inode c).direct 0 = s.curDirBlock) (hi : IsDir s i) (hempty : LooksEmpty s i)
include h hc hcur hi hempty

/-- The block of a directory that is not the current one says how many entries it has. -/
lemma LooksEmpty.extra_eq (h0 : i ≠ 0) (hic : i ≠ c) : extra 0 (named s) i = [] := by
  have hne : (s.inode i).direct 0 ≠ s.curDirBlock := fun hblock =>
    hic (IsDir.eq_of_block h.store hc hi (hblock.trans hcur.symm))
  have hcount : (dirAt s i).count = 2 := by
    unfold LooksEmpty at hempty
    rw [dirAt, liveDir, if_neg hne, Dentry.count, hempty]
    rfl
  apply List.drop_eq_nil_of_le
  rw [named, Dentry.length_inodes, hcount, first, if_neg h0]

variable (hdots : ¬ IsDots name)
include hdots

/-- A link to a directory goes, and another one in its parent is left. -/
lemma Rooted.unlinkDir (hfind : s.curDir.find name = some k)
    (hentry : (s.curDir.entry k).inode.toInt = i)
    (hpos : 0 < ((s.inode i).linkCount - 1).toInt) : Rooted (unlinked s i name) := by
  have hmem := mem_dirs.mpr hc
  have hk := h.first_le_of_name hc hcur hfind hdots
  have hk0 : 0 < k := first_pos.trans_le hk
  have hsame := (unlinked_relinked s i name).sameDirs
  have hcons := h.unlink hfind hentry hk0
  refine h.erase hc hcur hsame hcons hfind hentry hk rfl (fun _ hup => ?_) fun d hd hd0 => ?_
  · have hfits := (h.dirOk_current hc hcur).fits
    have hget : (named s c)[k]? = some i := by
      rw [named_current hcur, Dentry.getElem?_inodes (Dentry.find_some hfind).1, hentry]
    have hnames : named (unlinked s i name) c = (named s c).eraseIdx k := by
      rw [named, hsame.current hc hcur, named_current hcur]
      exact Dentry.remove_inodes hfits hfind
    have hic : i ≠ c := by
      obtain ⟨p, -, hpi, hp, -⟩ := h.tree.parent i (mem_dirs.mpr hi) hup.1
      rw [← hp.unique hup]
      exact hpi.symm
    have htwo := toInt_linkCount_sub h hi hup.1
    exact h.tree.mem_extra_of_two_le hmem hk hget hnames (mem_dirs.mpr hi)
      (hempty.extra_eq h hc hcur hi hup.1 hic) hup (by omega)
  · rw [unlinked_linkCount]
    split_ifs with hdi
    · subst hdi
      have hle := h.linkCount_le hd hd0
      rw [CInt.toInt_sub_one (by omega)]
      omega
    · rw [add_zero]

end RemoveDir

/-! ### The last link -/

/-- The entries after the inode `i` is gone; what it would name itself does not matter. -/
def left (s s' : FS) (i : ℤ) : ℤ → List ℤ := Function.update (named s') i (named s i)

lemma left_eq (s s' : FS) (i : ℤ) : ∀ d ∈ (dirs s).erase i, left s s' i d = named s' d := by
  intro d hd
  unfold left
  rw [Function.update_of_ne (Finset.ne_of_mem_erase hd)]

section DropDir
variable {s s' : FS} {c i : ℤ} {name : List UInt8} {k : ℕ} (h : Rooted s) (hc : IsDir s c)
  (hcur : (s.inode c).direct 0 = s.curDirBlock) (hdrop : Dropped s name k i s')
  (hi : IsDir s i) (h0 : i ≠ 0) (hempty : LooksEmpty s i) (hdots : ¬ IsDots name)
include hcur hdrop

lemma Dropped.getElem?_named : (named s c)[k]? = some i := by
  rw [named_current hcur]
  exact hdrop.getElem?_inodes

include h hc

lemma Dropped.dirAt_eq {d : ℤ} (hd : IsDir s' d) (hdc : d ≠ c) : dirAt s' d = dirAt s d :=
  hdrop.keptDirs.dirAt_eq h.store hc hcur ((hdrop.isDir d).mp hd).1 hd hdc

lemma left_current (hic : i ≠ c) : left s s' i c = (named s c).eraseIdx k := by
  have hc' : IsDir s' c := (hdrop.isDir c).mpr ⟨hc, hic.symm⟩
  unfold left
  rw [Function.update_of_ne hic.symm, named, hdrop.keptDirs.current hc hc' hcur,
    hdrop.inodes_eq (h.dirOk_current hc hcur).fits, named_current hcur]

lemma left_rest : ∀ d ∈ dirs s, d ≠ c → left s s' i d = named s d := by
  intro d hd hdc
  unfold left
  by_cases hdi : d = i
  · rw [hdi, Function.update_self]
  · have hd' := (hdrop.isDir d).mpr ⟨mem_dirs.mp hd, hdi⟩
    rw [Function.update_of_ne hdi, named, named, hdrop.dirAt_eq h hc hcur hd' hdc]

include hi h0

omit hc hcur in
lemma Dropped.references_le_one : references (dirs s) (extra 0 (named s)) i ≤ 1 := by
  have hsub := toInt_linkCount_sub h hi h0
  have hlast := hdrop.last
  omega

include hdots

/-- A directory that names itself has another link in its parent. -/
lemma Dropped.ne_current : i ≠ c := by
  rintro rfl
  have hk := h.first_le_of_name hc hcur hdrop.find hdots
  have hextra := mem_extra_of_le hk (hdrop.getElem?_named hcur)
  have htwo := h.tree.two_le_references (mem_dirs.mpr hc) h0 hextra
  have hone := hdrop.references_le_one h hi h0
  omega

include hempty

lemma Dropped.extra_eq : extra 0 (named s) i = [] :=
  hempty.extra_eq h hc hcur hi h0 (hdrop.ne_current h hc hcur hi h0 hdots)

/-- Nothing names the directory that is gone. -/
lemma Dropped.notMem_named {d : ℤ} (hd : IsDir s' d) : i ∉ named s' d := by
  have hd' := mem_dirs.mpr hd
  rw [hdrop.dirs_eq] at hd'
  have hic := hdrop.ne_current h hc hcur hi h0 hdots
  rw [← left_eq s s' i d hd']
  exact h.tree.notMem_of_drop (mem_dirs.mpr hc) (h.first_le_of_name hc hcur hdrop.find hdots)
    (hdrop.getElem?_named hcur) (left_current h hc hcur hdrop hic) (left_rest h hc hcur hdrop)
    (mem_dirs.mpr hi) h0 (hdrop.extra_eq h hc hcur hi h0 hempty hdots)
    (hdrop.references_le_one h hi h0) hd'

lemma Dropped.dir_consistent : Consistent s' := by
  have hok := h.dirOk_current hc hcur
  have hic := hdrop.ne_current h hc hcur hi h0 hdots
  have hc' : IsDir s' c := (hdrop.isDir c).mpr ⟨hc, hic.symm⟩
  have hkept := hdrop.keptDirs
  have hblocks := h.blocksOwned.drop hdrop hi.1
  refine { store := hblocks.store, reserved := hblocks.reserved, data := hblocks.data,
           noLeak := hblocks.noLeak, current := ⟨c, hc', ?_⟩, dirOk := fun d hd => ?_,
           linkCount := fun j hj => ?_ }
  · rw [hkept.direct c hc hc', hkept.curDirBlock, hcur]
  · have hentries : ∀ j ∈ (dirAt s' d).inodes, Allocated s j → Allocated s' j := fun j hj hjs =>
      (hdrop.allocated j).mpr
        ⟨hjs, fun hji => hdrop.notMem_named h hc hcur hi h0 hempty hdots hd (hji ▸ hj)⟩
    by_cases hdc : d = c
    · subst hdc
      have hk := first_pos.trans_le (h.first_le_of_name hc hcur hdrop.find hdots)
      rw [hkept.current hc hc' hcur] at hentries ⊢
      rw [hdrop.inodes_eq hok.fits] at hentries
      rw [hdrop.curDir]
      exact hok.remove hdrop.find hk fun j hj =>
        hentries j hj (hok.entries j (List.mem_of_mem_eraseIdx hj))
    · rw [hdrop.dirAt_eq h hc hcur hd hdc] at hentries ⊢
      have hdok := h.dirOk d ((hdrop.isDir d).mp hd).1
      exact { hdok with entries := fun j hj => hentries j hj (hdok.entries j hj) }
  · have hj' : IsFile s j := ⟨((hdrop.allocated j).mp hj.1).1, by rw [← hdrop.inode_eq hj.1, hj.2]⟩
    have hcount := h.tree.references_drop_of_notMem (mem_dirs.mpr hc)
      (hdrop.getElem?_named hcur) (left_current h hc hcur hdrop hic) (left_rest h hc hcur hdrop)
      (mem_dirs.mpr hi) hic (hdrop.extra_eq h hc hcur hi h0 hempty hdots)
      (fun hmem => hj'.not_isDir (mem_dirs.mp hmem))
    rw [hdrop.inode_eq hj.1, h.linkCount j hj']
    change ((references (dirs s) (named s) j : ℕ) : ℤ) = (references (dirs s') (named s') j : ℕ)
    rw [← hcount, hdrop.dirs_eq, references_congr (left_eq s s' i)]

/-- A directory goes with its last link. -/
lemma Dropped.dir_rooted : Rooted s' := by
  have hmem := mem_dirs.mpr hc
  have hmemi := mem_dirs.mpr hi
  have hok := h.dirOk_current hc hcur
  have hk := h.first_le_of_name hc hcur hdrop.find hdots
  have hic := hdrop.ne_current h hc hcur hi h0 hdots
  have hget := hdrop.getElem?_named hcur
  have hnone := hdrop.extra_eq h hc hcur hi h0 hempty hdots
  have hnames := left_current h hc hcur hdrop hic
  have hrest := left_rest h hc hcur hdrop
  have hc' : IsDir s' c := (hdrop.isDir c).mpr ⟨hc, hic.symm⟩
  refine { toConsistent := hdrop.dir_consistent h hc hcur hi h0 hempty hdots, tree := ?_,
           dotdot := fun d hd hd0 => ?_, dirLinks := fun d hd hd0 => ?_ }
  · rw [hdrop.dirs_eq]
    exact (h.tree.drop hmem hk hget hnames hrest hmemi h0 hnone).congr fun d hd =>
      (left_eq s s' i d hd).symm
  · have hd' := ((hdrop.isDir d).mp hd).1
    by_cases hdc : d = c
    · subst hdc
      unfold first at hk
      rw [if_neg hd0] at hk
      rw [hdrop.keptDirs.current hc hc' hcur, hdrop.curDir,
        Dentry.remove_entry hok.fits hdrop.find (by omega), ← dirAt_current hcur]
      exact h.dotdot d hd' hd0
    · rw [hdrop.dirAt_eq h hc hcur hd hdc]
      exact h.dotdot d hd' hd0
  · obtain ⟨hd', hdi⟩ := (hdrop.isDir d).mp hd
    have hcount := WellFormed.references_drop hmem hk hget hnames hrest hmemi hnone d
    have hextra : references ((dirs s).erase i) (extra 0 (left s s' i)) d =
        references ((dirs s).erase i) (extra 0 (named s')) d :=
      references_congr (fun d hd => extra_congr (left_eq s s' i d hd)) d
    rw [if_neg hdi, Nat.add_zero, hextra] at hcount
    rw [hdrop.dirs_eq, hdrop.inode d hdi, h.dirLinks d hd' hd0, hcount]

end DropDir

/-! ## `cd` -/

lemma Rooted.changeDir {s : FS} (h : Rooted s) (name : List UInt8) :
    Rooted (dirChange name s).2 := by
  rcases h.ready.search name with ⟨-, hsearch⟩ | ⟨k, -, -, hi⟩
  · have hprint :
        (dirChange name s).2 = printf s (str "Directory change failed: no such directory\n") := by
      unfold dirChange
      dsimp only
      rw [if_pos hsearch]
    rw [hprint]
    exact h.print (Printed.printf s _)
  · by_cases htype : (s.inode (searchCurDir s name)).type = .directory
    · have hd : IsDir s (searchCurDir s name) := ⟨hi, htype⟩
      obtain ⟨hblock, -⟩ := dirChange_to rfl hd (h.store.marked hd.1 hd.block_mem)
      exact (dirChange_moved s name).rooted h ⟨_, hd, hblock.symm⟩
    · have hne := hi.ne_neg_one
      have hprint :
          (dirChange name s).2 = printf s (str "Directory change failed: not a directory\n") := by
        unfold dirChange readInode
        dsimp only
        rw [if_neg hne, if_pos htype]
      rw [hprint]
      exact h.print (Printed.printf s _)

end OsProjects.FileSys
