import OsProjects.FileSys.Restore
import OsProjects.FileSys.Dispatch
import OsProjects.Library.DirTree

/-!
# The tree of directories

The directories form a tree with the root at inode 0.  Links to a directory are made only
where it is named already, and `rmdir` takes a directory away with its last link, when
nothing is in it any more.
-/

namespace OsProjects.FileSys
open Ownership DirTree

/-- The inode numbers in the directory `d`. -/
def named (s : FS) (d : ℤ) : List ℤ := (dirAt s d).inodes

/-- The link count of the root is not said to be right: it starts at 0. -/
structure Rooted (s : FS) : Prop extends Consistent s where
  tree : WellFormed 0 (dirs s) (named s)
  dotdot : ∀ d, IsDir s d → d ≠ 0 → ((dirAt s d).entry 1).cstr = str ".."
  dirLinks : ∀ d, IsDir s d → d ≠ 0 →
    (s.inode d).linkCount.toInt = references (dirs s) (extra 0 (named s)) d

lemma Fresh.rooted {s : FS} (h : Fresh s) : Rooted s := by
  have hdirs : dirs s = {0} := by
    ext d
    rw [mem_dirs, Finset.mem_singleton]
    constructor
    · exact fun hd => (h.allocated d).mp hd.1
    · rintro rfl
      exact h.isDir_root
  have hnamed : named s 0 = [0] := by
    unfold named
    rw [h.dirAt_root]
    decide
  have hzero : ∀ d, IsDir s d → d = 0 := fun d hd => (h.allocated d).mp hd.1
  refine { h.consistent with
           tree := { root_mem := ?_, self := ?_, parent := ?_, edge := ?_ }
           dotdot := fun d hd h0 => absurd (hzero d hd) h0
           dirLinks := fun d hd h0 => absurd (hzero d hd) h0 }
  · exact mem_dirs.mpr h.isDir_root
  · intro d hd
    rw [hzero d (mem_dirs.mp hd), hnamed]
    rfl
  · intro d hd h0
    exact absurd (hzero d (mem_dirs.mp hd)) h0
  · intro d hd t _ ht
    rw [hzero d (mem_dirs.mp hd), hzero t (mem_dirs.mp ht)]
    exact Or.inl rfl

lemma named_current {s : FS} {c : ℤ} (hcur : (s.inode c).direct 0 = s.curDirBlock) :
    named s c = s.curDir.inodes := by
  rw [named, dirAt_current hcur]

/-! ## Moving -/

namespace Moved
variable {s s' : FS} (hm : Moved s s') (h : Rooted s)
include hm

lemma allocated (i : ℤ) : Allocated s' i ↔ Allocated s i := by
  unfold Allocated
  rw [hm.inodeMap_eq]

include h

lemma dirAt_eq_of_isDir {d : ℤ} (hd : IsDir s d) : dirAt s' d = dirAt s d :=
  hm.dirAt_eq (h.store.marked hd.1 hd.block_mem)

/-- The block that is written belongs to no file. -/
lemma owned_eq {i : ℤ} (hi : Allocated s i) :
    owned s'.disk (s'.inode i) = owned s.disk (s.inode i) := by
  rw [hm.inode_eq]
  cases htype : (s.inode i).type with
  | directory => rw [owned_directory htype, owned_directory htype]
  | file =>
    apply owned_congr
    intro b hb
    rw [owned_file htype] at hb
    exact hm.disk_eq ((h.store.dirsOwned h.current).ne_curDirBlock ⟨hi, htype⟩ hb)

lemma blocksOwned : BlocksOwned s' where
  store := by
    refine { inodes := ?_, blocks := ?_, files := fun i hi hfile => ?_, separate := ?_ }
    · unfold InodesCounted
      rw [hm.superBlock_eq, hm.inodeMap_eq]
      exact h.store.inodes
    · unfold BlocksCounted
      rw [hm.superBlock_eq, hm.blockMap_eq]
      exact h.store.blocks
    · rw [hm.inode_eq] at hfile ⊢
      exact h.store.files i ((hm.allocated i).mp hi) hfile
    · exact h.store.separate.congr hm.allocated (fun i hi => hm.owned_eq h hi)
        fun b hb => (hm.marked b).mpr hb
  reserved := by
    rw [hm.blockMap_eq]
    exact h.reserved
  data := by
    intro i hi b hb
    have hi' := (hm.allocated i).mp hi
    rw [hm.owned_eq h hi'] at hb
    exact h.data i hi' b hb
  noLeak := h.noLeak.congr hm.allocated (fun i hi => hm.owned_eq h hi) fun b hb =>
    ⟨hb.1, (hm.marked b).mp hb.2⟩

omit h in
lemma dirs_eq : dirs s' = dirs s := by
  ext d
  rw [mem_dirs, mem_dirs, hm.isDir]

lemma named_eq : ∀ d ∈ dirs s, named s' d = named s d := by
  intro d hd
  unfold named
  rw [hm.dirAt_eq_of_isDir h (mem_dirs.mp hd)]

/-- The tree stays; one has moved in it. -/
lemma rooted (hcurrent : ∃ c, IsDir s c ∧ (s.inode c).direct 0 = s'.curDirBlock) : Rooted s' := by
  have hblocks := hm.blocksOwned h
  obtain ⟨c, hc, hcur⟩ := hcurrent
  refine { store := hblocks.store, reserved := hblocks.reserved, data := hblocks.data,
           noLeak := hblocks.noLeak, current := ⟨c, (hm.isDir c).mpr hc, by rw [hm.inode_eq, hcur]⟩,
           dirOk := fun d hd => ?_, linkCount := fun i hi => ?_, tree := ?_,
           dotdot := fun d hd hd0 => ?_, dirLinks := fun d hd hd0 => ?_ }
  · have hd' := (hm.isDir d).mp hd
    rw [hm.dirAt_eq_of_isDir h hd']
    have hok := h.dirOk d hd'
    exact { hok with entries := fun j hj => (hm.allocated j).mpr (hok.entries j hj) }
  · have hi' : IsFile s i := ⟨(hm.allocated i).mp hi.1, by rw [← hm.inode_eq, hi.2]⟩
    rw [hm.inode_eq, h.linkCount i hi']
    unfold links
    rw [hm.dirs_eq]
    exact congrArg Nat.cast (references_congr (hm.named_eq h) i).symm
  · rw [hm.dirs_eq]
    exact h.tree.congr (hm.named_eq h)
  · have hd' := (hm.isDir d).mp hd
    rw [hm.dirAt_eq_of_isDir h hd']
    exact h.dotdot d hd' hd0
  · have hd' := (hm.isDir d).mp hd
    rw [hm.inode_eq, hm.dirs_eq, h.dirLinks d hd' hd0]
    have hextra : references (dirs s) (extra 0 (named s')) d =
        references (dirs s) (extra 0 (named s)) d :=
      references_congr (fun d hd => extra_congr (hm.named_eq h d hd)) d
    rw [hextra]

end Moved

namespace Rooted
variable {s s' : FS} {c i : ℤ} {name : List UInt8} {k : ℕ}

lemma isDir_root (h : Rooted s) : IsDir s 0 := mem_dirs.mp h.tree.root_mem

/-- There are at most as many links to a directory as entries. -/
lemma linkCount_le (h : Rooted s) (hi : IsDir s i) (h0 : i ≠ 0) :
    0 ≤ (s.inode i).linkCount.toInt ∧ (s.inode i).linkCount.toInt ≤ 512 * 21 := by
  have hle : references (dirs s) (extra 0 (named s)) i ≤ links s i := references_extra_le i
  have hlinks := h.links_le i
  rw [h.dirLinks i hi h0]
  omega

/-! ## Where an entry stands -/

section Current
variable (h : Rooted s) (hc : IsDir s c) (hcur : (s.inode c).direct 0 = s.curDirBlock)
include h hc hcur

lemma first_le_count : first 0 c ≤ s.curDir.count := by
  have hle := h.tree.first_le (mem_dirs.mpr hc)
  rwa [named_current hcur, Dentry.length_inodes] at hle

lemma first_le_of_file (hentry : (s.curDir.entry k).inode.toInt = i)
    (hfile : (s.inode i).type = .file) : first 0 c ≤ k := by
  by_contra hlt
  rcases lt_first_cases (not_le.mp hlt) with rfl | ⟨rfl, hroot⟩
  · exact absurd (h.entry_pos hfile hentry) (lt_irrefl 0)
  · -- the second entry leads to the parent
    obtain ⟨p, hp, -, hup, -⟩ := h.tree.parent c (mem_dirs.mpr hc) hroot
    have hone : 1 < s.curDir.count := by
      have hle := h.first_le_count hc hcur
      unfold first at hle
      rw [if_neg hroot] at hle
      omega
    have hget := hup.2
    rw [named_current hcur, Dentry.getElem?_inodes hone, hentry] at hget
    obtain rfl := Option.some.inj hget
    have htype := (mem_dirs.mp hp).2
    rw [hfile] at htype
    cases htype

lemma first_le_of_name (hfind : s.curDir.find name = some k) (hdots : ¬ IsDots name) :
    first 0 c ≤ k := by
  have hname := command_iff.mp (Dentry.find_some hfind).2.1
  by_contra hlt
  apply hdots
  rcases lt_first_cases (not_le.mp hlt) with rfl | ⟨rfl, hroot⟩
  · exact Or.inl (command_iff.mpr (hname.trans (h.dirOk_current hc hcur).dot))
  · have hdotdot := h.dotdot c hc hroot
    rw [dirAt_current hcur] at hdotdot
    exact Or.inr (command_iff.mpr (hname.trans hdotdot))

end Current

/-! ## An entry more or less in the current directory -/

section Entry
variable (h : Rooted s) (hc : IsDir s c) (hcur : (s.inode c).direct 0 = s.curDirBlock)
  (hsame : SameDirs s s') (hcons : Consistent s')
include h hc hcur hsame

lemma named_rest : ∀ d ∈ dirs s, d ≠ c → named s' d = named s d := by
  intro d hd hdc
  unfold named
  rw [hsame.dirAt_eq h.store hc hcur (mem_dirs.mp hd) hdc]

include hcons

lemma step (htree : WellFormed 0 (dirs s) (named s'))
    (hdotdot : c ≠ 0 → (s'.curDir.entry 1).cstr = str "..")
    (hlinks : ∀ d, IsDir s d → d ≠ 0 →
      (s'.inode d).linkCount.toInt = references (dirs s) (extra 0 (named s')) d) : Rooted s' where
  toConsistent := hcons
  tree := by
    rw [hsame.dirs_eq]
    exact htree
  dotdot := by
    intro d hd hd0
    rw [hsame.isDir] at hd
    by_cases hdc : d = c
    · subst hdc
      rw [hsame.current hc hcur]
      exact hdotdot hd0
    · rw [hsame.dirAt_eq h.store hc hcur hd hdc]
      exact h.dotdot d hd hd0
  dirLinks := by
    intro d hd hd0
    rw [hsame.dirs_eq]
    exact hlinks d ((hsame.isDir d).mp hd) hd0

/-- One entry more, for something that is named already or is no directory. -/
lemma append (hroom : s.curDir.count < 21) {z : Int32}
    (hcurDir : s'.curDir = s.curDir.add name z.toInt)
    (hz : IsDir s z.toInt → z.toInt ∈ s.curDir.inodes)
    (hlink : ∀ d, IsDir s d → d ≠ 0 → (s'.inode d).linkCount.toInt =
      (s.inode d).linkCount.toInt + if d = z.toInt then 1 else 0) : Rooted s' := by
  have hmem := mem_dirs.mpr hc
  have hfits := (h.dirOk_current hc hcur).fits
  have hnames : named s' c = named s c ++ [z.toInt] := by
    rw [named, hsame.current hc hcur, hcurDir, Dentry.add_inodes hfits hroom, named_current hcur]
  have hrest := h.named_rest hc hcur hsame
  refine h.step hc hcur hsame hcons (h.tree.link hmem (fun hzd => ?_) hnames hrest)
    (fun hroot => ?_) fun d hd hd0 => ?_
  · rw [named_current hcur]
    exact hz (mem_dirs.mp hzd)
  · have hle := h.first_le_count hc hcur
    unfold first at hle
    rw [if_neg hroot] at hle
    rw [hcurDir, Dentry.add_entry hroom _ (by omega), ← dirAt_current hcur]
    exact h.dotdot c hc hroot
  · rw [hlink d hd hd0, h.dirLinks d hd hd0, h.tree.references_append hmem hnames hrest]
    push_cast
    rfl

/-- One entry less, which is not the last one for a directory in its parent. -/
lemma erase (hfind : s.curDir.find name = some k) (hentry : (s.curDir.entry k).inode.toInt = i)
    (hk : first 0 c ≤ k) (hcurDir : s'.curDir = s.curDir.remove name)
    (hleft : IsDir s i → Parent 0 (named s) i c → i ∈ extra 0 (named s') c)
    (hlink : ∀ d, IsDir s d → d ≠ 0 → (s'.inode d).linkCount.toInt + (if d = i then 1 else 0) =
      (s.inode d).linkCount.toInt) : Rooted s' := by
  have hmem := mem_dirs.mpr hc
  have hfits := (h.dirOk_current hc hcur).fits
  have hnames : named s' c = (named s c).eraseIdx k := by
    rw [named, hsame.current hc hcur, hcurDir, Dentry.remove_inodes hfits hfind, named_current hcur]
  have hget : (named s c)[k]? = some i := by
    rw [named_current hcur, Dentry.getElem?_inodes (Dentry.find_some hfind).1, hentry]
  have hrest := h.named_rest hc hcur hsame
  refine h.step hc hcur hsame hcons
    (h.tree.unlink hmem hk hget hnames hrest fun hid => hleft (mem_dirs.mp hid)) (fun hroot => ?_)
    fun d hd hd0 => ?_
  · unfold first at hk
    rw [if_neg hroot] at hk
    rw [hcurDir, Dentry.remove_entry hfits hfind (by omega), ← dirAt_current hcur]
    exact h.dotdot c hc hroot
  · have hcount := WellFormed.references_erase hmem hk hget hnames hrest d
    have hold := h.dirLinks d hd hd0
    have hnew := hlink d hd hd0
    split_ifs at hcount hnew <;> omega

end Entry

/-! ## The file commands -/

lemma print (h : Rooted s) (hprint : Printed s s') : Rooted s' := by
  have hblock : s'.curDirBlock = s.curDirBlock := by rw [hprint]
  exact hprint.moved.rooted h (hblock ▸ h.current)

/-- A step of a file command. -/
lemma fileStep (h : Rooted s) (hstep : FileStep s s') : Rooted s' := by
  obtain ⟨c, hc, hcur⟩ := h.current
  have hcons := hstep.consistent h.toConsistent
  have hne : ∀ {i d : ℤ}, (s.inode i).type = .file → IsDir s d → d ≠ i := by
    rintro i d hfile hd rfl
    have htype := hd.2
    rw [hfile] at htype
    cases htype
  cases hstep with
  | print hprint => exact h.print hprint
  | make hmade hfile hok =>
    refine h.append hc hcur (hmade.sameDirs h.store hfile) hcons hmade.room hmade.curDir
      (fun hi => absurd hi.1 hmade.not_allocated) fun d hd _ => ?_
    rw [hmade.inode_eq hd.1, if_neg, add_zero]
    rintro rfl
    exact hmade.not_allocated hd.1
  | @link k i dest hk hi hroom =>
    have hmem : i.toInt ∈ s.curDir.inodes := Dentry.mem_inodes.mpr ⟨k, hk, by rw [hi]⟩
    refine h.append hc hcur (linked_relinked s i.toInt dest).sameDirs hcons hroom rfl
      (fun _ => hmem) fun d hd hd0 => ?_
    have hle := h.linkCount_le hd hd0
    rw [linked_linkCount]
    split_ifs with hdi
    · rw [← hdi, CInt.toInt_add_one (by omega)]
    · rw [add_zero]
  | unlink hfind hi hfile hpos =>
    refine h.erase hc hcur (unlinked_relinked s _ _).sameDirs hcons hfind hi
      (h.first_le_of_file hc hcur hi hfile) rfl (fun hdir => absurd rfl (hne hfile hdir))
      fun d hd _ => ?_
    rw [unlinked_linkCount, if_neg (hne hfile hd), if_neg (hne hfile hd), add_zero]
  | drop hdrop hfile =>
    refine h.erase hc hcur (hdrop.sameDirs hfile) hcons hdrop.find hdrop.entry
      (h.first_le_of_file hc hcur hdrop.entry hfile) hdrop.curDir
      (fun hdir => absurd rfl (hne hfile hdir)) fun d hd _ => ?_
    rw [hdrop.inode d (hne hfile hd), if_neg (hne hfile hd), add_zero]

end Rooted

end OsProjects.FileSys
