import OsProjects.FileSys.RootKept
import OsProjects.FileSys.Kept
import OsProjects.Library.Connected

/-!
# Runs without links to directories

Where no link is made to a directory and no entry under one of the names `.` and `..`, every
directory is entered once, every file is named somewhere, and the directories can be told by
their entries alone.
-/

namespace OsProjects.FileSys
open Ownership DirTree

/-! ## The names `.` and `..` -/

lemma DirectoryEntry.bytes_eq (e : DirectoryEntry) :
    ∃ rest, e.bytes = e.name 0 :: e.name 1 :: e.name 2 :: rest := by
  have hname : List.ofFn e.name =
      e.name 0 :: e.name 1 :: e.name 2 :: List.ofFn fun k : Fin 17 => e.name k.succ.succ.succ := by
    rw [List.ofFn_succ, List.ofFn_succ, List.ofFn_succ]
    rfl
  rw [bytes, hname]
  exact ⟨_, rfl⟩

/-- Whether a name is one of the two is seen by its first three bytes. -/
lemma isDots_cstr_iff (e : DirectoryEntry) :
    IsDots e.cstr ↔ e.name 0 = 46 ∧ (e.name 1 = 0 ∨ e.name 1 = 46 ∧ e.name 2 = 0) := by
  obtain ⟨rest, hbytes⟩ := e.bytes_eq
  have hdot : str "." = [46] := by decide
  have hdotdot : str ".." = [46, 46] := by decide
  unfold IsDots
  rw [command_iff, command_iff, DirectoryEntry.cstr_eq, hbytes, hdot, hdotdot]
  generalize e.name 0 = a
  generalize e.name 1 = b
  generalize e.name 2 = c
  by_cases ha : a = 0
  · simp [ha]
  · by_cases hb : b = 0
    · simp [ha, hb]
    · by_cases hc : c = 0
      · simp [ha, hb, hc]
      · simp [ha, hb, hc]

/-- A name that is copied over another one keeps its front. -/
lemma not_isDots_strncpy {e e' : DirectoryEntry} (z : Int32) (h : ¬ IsDots e.cstr)
    (h' : ¬ IsDots e'.cstr) :
    ¬ IsDots ({ name := strncpy e.name e'.cstr, inode := z } : DirectoryEntry).cstr := by
  rw [isDots_cstr_iff] at h h' ⊢
  obtain ⟨rest, hbytes⟩ := e'.bytes_eq
  unfold strncpy
  dsimp only
  rw [DirectoryEntry.cstr_eq, hbytes]
  by_cases ha : e'.name 0 = 0
  · -- nothing is copied
    simpa [ha] using h
  · by_cases hb : e'.name 1 = 0
    · simp_all
    · by_cases hc : e'.name 2 = 0
      · simp_all
      · simp_all

namespace Dentry
variable {d : Dentry} {name : List UInt8} {k n : ℕ}

/-- From the entry `n` on no name is `.` or `..`. -/
def Plain (d : Dentry) (n : ℕ) : Prop := ∀ k, n ≤ k → k < d.count → ¬ IsDots (d.entry k).cstr

lemma Plain.add (h : d.Plain n) (hfits : d.Fits) (hroom : d.count < 21) (z : ℤ) (hne : 0 ∉ name)
    (hlength : name.length < 20) (hdots : ¬ IsDots name) : (d.add name z).Plain n := by
  intro k hn hk
  rw [add_count hfits] at hk
  by_cases hlast : k = d.count
  · rw [hlast, add_cstr hroom z hne hlength]
    exact hdots
  · rw [add_entry hroom z hlast]
    exact h k hn (by omega)

lemma Plain.remove (h : d.Plain n) (hfits : d.Fits) (hfind : d.find name = some k) :
    (d.remove name).Plain n := by
  have hcount := remove_count hfits hfind
  have hfound := (find_some hfind).1
  intro j hn hj
  by_cases hjk : j < k
  · rw [remove_entry hfits hfind hjk]
    exact h j hn (by omega)
  · rw [remove_entry_of_ge hfits hfind (not_lt.mp hjk) (by omega)]
    exact not_isDots_strncpy _ (h j hn (by omega)) (h (j + 1) (by omega) (by omega))

end Dentry

/-! ## The invariant -/

/-- Every file is named, the directories are a tree without further links, and no other entry looks
like `.` or `..`. -/
structure Neat (s : FS) : Prop where
  linkPos : ∀ i, IsFile s i → 0 < (s.inode i).linkCount.toInt
  connected : Connected 0 (dirs s) (named s)
  single : Single 0 (dirs s) (named s)
  plain : ∀ d, IsDir s d → (dirAt s d).Plain (first 0 d)

section Same
variable {s s' : FS} {c : ℤ} (h : Rooted s) (hn : Neat s) (hc : IsDir s c)
  (hcur : (s.inode c).direct 0 = s.curDirBlock) (hsame : SameDirs s s')
  (hlink : ∀ i, IsFile s' i → 0 < (s'.inode i).linkCount.toInt)
include h hn hc hcur hsame hlink

/-- An entry more for something that is no directory. -/
lemma Neat.append (hroom : s.curDir.count < 21) {name : Word} {z : Int32}
    (hcurDir : s'.curDir = s.curDir.add name.text z.toInt) (hz : ¬ IsDir s z.toInt)
    (hdots : ¬ IsDots name.text) : Neat s' := by
  have hmem := mem_dirs.mpr hc
  have hlength := name.length_le
  have hfits := (h.dirOk_current hc hcur).fits
  have hnames : named s' c = named s c ++ [z.toInt] := by
    rw [named, hsame.current hc hcur, hcurDir, Dentry.add_inodes hfits hroom, named_current hcur]
  have hrest := h.named_rest hc hcur hsame
  refine ⟨hlink, ?_, ?_, fun d hd => ?_⟩
  · rw [hsame.dirs_eq]
    exact h.tree.connected_append hrest hn.connected hnames
  · rw [hsame.dirs_eq]
    exact h.tree.single_append hmem hrest hn.single hnames fun hzd => hz (mem_dirs.mp hzd)
  · rw [hsame.isDir] at hd
    by_cases hdc : d = c
    · subst hdc
      have hplain := hn.plain d hd
      rw [dirAt_current hcur] at hplain
      rw [hsame.current hc hcur, hcurDir]
      exact hplain.add hfits hroom _ name.ne_zero (by omega) hdots
    · rw [hsame.dirAt_eq h.store hc hcur hd hdc]
      exact hn.plain d hd

/-- An entry less for something that is no directory. -/
lemma Neat.erase {name : List UInt8} {k : ℕ} {i : ℤ} (hfind : s.curDir.find name = some k)
    (hentry : (s.curDir.entry k).inode.toInt = i) (hk : first 0 c ≤ k)
    (hcurDir : s'.curDir = s.curDir.remove name) (hi : ¬ IsDir s i) : Neat s' := by
  have hmem := mem_dirs.mpr hc
  have hfits := (h.dirOk_current hc hcur).fits
  have hnames : named s' c = (named s c).eraseIdx k := by
    rw [named, hsame.current hc hcur, hcurDir, Dentry.remove_inodes hfits hfind, named_current hcur]
  have hget : (named s c)[k]? = some i := by
    rw [named_current hcur, Dentry.getElem?_inodes (Dentry.find_some hfind).1, hentry]
  have hrest := h.named_rest hc hcur hsame
  refine ⟨hlink, ?_, ?_, fun d hd => ?_⟩
  · rw [hsame.dirs_eq]
    exact h.tree.connected_erase hk hnames hrest hn.connected
  · rw [hsame.dirs_eq]
    exact WellFormed.single_erase hmem hk hget hnames hrest hn.single
      fun hid => hi (mem_dirs.mp hid)
  · rw [hsame.isDir] at hd
    by_cases hdc : d = c
    · subst hdc
      have hplain := hn.plain d hd
      rw [dirAt_current hcur] at hplain
      rw [hsame.current hc hcur, hcurDir]
      exact hplain.remove hfits hfind
    · rw [hsame.dirAt_eq h.store hc hcur hd hdc]
      exact hn.plain d hd

end Same

section Steps
variable {s s' : FS} (h : Rooted s) (hn : Neat s)
include h hn

/-- Only the place in the tree changes. -/
lemma Neat.moved (hm : Moved s s') : Neat s' where
  linkPos := by
    intro i hi
    have hi' : IsFile s i := ⟨(hm.allocated i).mp hi.1, by rw [← hm.inode_eq, hi.2]⟩
    rw [hm.inode_eq]
    exact hn.linkPos i hi'
  connected := by
    rw [hm.dirs_eq]
    apply hn.connected.of_parent (Finset.Subset.refl (dirs s))
    intro d hd p hp
    exact ⟨(h.tree.parent_spec hd hp).1, (Parent.congr (hm.named_eq h d hd)).mpr hp⟩
  single := by
    rw [hm.dirs_eq]
    intro d hd
    rw [references_congr fun e he => extra_congr (hm.named_eq h e he)]
    exact hn.single d hd
  plain := by
    intro d hd
    have hd' := (hm.isDir d).mp hd
    rw [hm.dirAt_eq_of_isDir h hd']
    exact hn.plain d hd'

lemma Neat.printed (hprint : Printed s s') : Neat s' := hn.moved h hprint.moved

/-- A new file. -/
lemma Neat.make {name : Word} {i : Int32} (hmade : Made s name.text i s')
    (hfile : (s'.inode i.toInt).type = .file) (hdots : ¬ IsDots name.text) : Neat s' := by
  obtain ⟨c, hc, hcur⟩ := h.current
  refine hn.append h hc hcur (hmade.sameDirs h.store hfile) (fun j hj => ?_) hmade.room hmade.curDir
    (fun hi => hmade.not_allocated hi.1) hdots
  by_cases hji : j = i.toInt
  · rw [hji, hmade.linkCount]
    decide
  · have hj' : IsFile s j :=
      ⟨((hmade.allocated j).mp hj.1).resolve_right hji, by rw [← hmade.inode j hji, hj.2]⟩
    rw [hmade.inode j hji]
    exact hn.linkPos j hj'

/-- A link to a file. -/
lemma Neat.link {name : Word} {i : Int32} (hi : ¬ IsDir s i.toInt) (hroom : s.curDir.count < 21)
    (hdots : ¬ IsDots name.text) : Neat (linked s i.toInt name.text) := by
  obtain ⟨c, hc, hcur⟩ := h.current
  have hrelink := linked_relinked s i.toInt name.text
  refine hn.append h hc hcur hrelink.sameDirs (fun j hj => ?_) hroom rfl hi hdots
  have hj' : IsFile s j := ⟨(hrelink.allocated j).mp hj.1, (hrelink.type_eq j).symm.trans hj.2⟩
  have hpos := hn.linkPos j hj'
  have hle := h.links_le j
  have hlinks := h.linkCount j hj'
  rw [linked_linkCount]
  split_ifs with hji
  · rw [← hji, CInt.toInt_add_one (by omega)]
    omega
  · exact hpos

/-- A link of several to a file goes. -/
lemma Neat.unlink {name : List UInt8} {k : ℕ} {i : ℤ} (hfind : s.curDir.find name = some k)
    (hentry : (s.curDir.entry k).inode.toInt = i) (hfile : (s.inode i).type = .file)
    (hpos : 0 < ((s.inode i).linkCount - 1).toInt) : Neat (unlinked s i name) := by
  obtain ⟨c, hc, hcur⟩ := h.current
  have hrelink := unlinked_relinked s i name
  refine hn.erase h hc hcur hrelink.sameDirs (fun j hj => ?_) hfind hentry
    (h.first_le_of_file hc hcur hentry hfile) rfl fun hdir => ?_
  · have hj' : IsFile s j := ⟨(hrelink.allocated j).mp hj.1, (hrelink.type_eq j).symm.trans hj.2⟩
    rw [unlinked_linkCount]
    split_ifs with hji
    · exact hpos
    · exact hn.linkPos j hj'
  · rw [hdir.2] at hfile
    cases hfile

/-- The last link to a file goes. -/
lemma Neat.drop {name : List UInt8} {k : ℕ} {i : ℤ} (hdrop : Dropped s name k i s')
    (hfile : (s.inode i).type = .file) : Neat s' := by
  obtain ⟨c, hc, hcur⟩ := h.current
  refine hn.erase h hc hcur (hdrop.sameDirs hfile) (fun j hj => ?_) hdrop.find hdrop.entry
    (h.first_le_of_file hc hcur hdrop.entry hfile) hdrop.curDir fun hdir => ?_
  · obtain ⟨hj', hji⟩ := (hdrop.allocated j).mp hj.1
    rw [hdrop.inode j hji]
    exact hn.linkPos j ⟨hj', by rw [← hdrop.inode j hji, hj.2]⟩
  · rw [hdir.2] at hfile
    cases hfile

/-- A new directory. -/
lemma Neat.makeDir {name : Word} {c b : ℤ} {i : Int32} (hc : IsDir s c)
    (hcur : (s.inode c).direct 0 = s.curDirBlock) (hmade : Made s name.text i s')
    (hdir : DirMade s name.text c i b s') (hdots : ¬ IsDots name.text) : Neat s' := by
  have hmem := mem_dirs.mpr hc
  have hlength := name.length_le
  have hdirs := hdir.dirs_eq hmade
  have hi : i.toInt ∉ dirs s := fun hi => hmade.not_allocated (mem_dirs.mp hi).1
  have hfresh : ∀ d ∈ dirs s, i.toInt ∉ named s d := fun d hd hmem =>
    hmade.not_allocated ((h.dirOk d (mem_dirs.mp hd)).entries _ hmem)
  have hnew := hdir.named_new h hc hcur
  have hnames := hdir.named_current h hc hcur hmade
  have hrest := hdir.named_rest h hc hcur hmade
  refine ⟨fun j hj => ?_, ?_, ?_, fun d hd => ?_⟩
  · have hji : j ≠ i.toInt := by
      rintro rfl
      have htype := hj.2
      rw [hdir.type] at htype
      cases htype
    rw [hmade.inode j hji]
    exact hn.linkPos j
      ⟨((hmade.allocated j).mp hj.1).resolve_right hji, by rw [← hmade.inode j hji, hj.2]⟩
  · rw [hdirs]
    exact h.tree.connected_make hmem hrest hi hnew hnames hn.connected
  · rw [hdirs]
    exact h.tree.single_make hmem hrest hi hnew hnames hn.single hfresh
  · rcases (hdir.isDir hmade d).mp hd with hd' | rfl
    · by_cases hdc : d = c
      · subst hdc
        have hplain := hn.plain d hd'
        rw [dirAt_current hcur] at hplain
        rw [(hmade.keptDirs h.store).current hd' hd hcur, hmade.curDir]
        exact hplain.add (h.dirOk_current hd' hcur).fits hmade.room _ name.ne_zero (by omega) hdots
      · rw [hdir.dirAt_eq h hc hcur hmade hd' hdc]
        exact hn.plain d hd'
    · -- nothing but the first two entries
      have hcount : (dirAt s' i.toInt).count = 2 := by
        rw [hdir.dirAt_new h hc hcur, Dentry.count, hdir.numEntry]
        rfl
      have hroot : i.toInt ≠ 0 := fun h0 => hi (h0 ▸ mem_dirs.mpr h.isDir_root)
      intro k hk hlt
      rw [first, if_neg hroot] at hk
      omega

/-- A directory goes. -/
lemma Neat.dropDir {name : List UInt8} {k : ℕ} {c i : ℤ} (hc : IsDir s c)
    (hcur : (s.inode c).direct 0 = s.curDirBlock) (hdrop : Dropped s name k i s') (hi : IsDir s i)
    (h0 : i ≠ 0) (hempty : LooksEmpty s i) (hdots : ¬ IsDots name) : Neat s' := by
  have hmem := mem_dirs.mpr hc
  have hk := h.first_le_of_name hc hcur hdrop.find hdots
  have hic := hdrop.ne_current h hc hcur hi h0 hdots
  have hnone := hdrop.extra_eq h hc hcur hi h0 hempty hdots
  have hget := hdrop.getElem?_named hcur
  have hnames := left_current h hc hcur hdrop hic
  have hrest := left_rest h hc hcur hdrop
  have hleft := left_eq s s' i
  refine ⟨fun j hj => ?_, ?_, ?_, fun d hd => ?_⟩
  · obtain ⟨hj', hji⟩ := (hdrop.allocated j).mp hj.1
    rw [hdrop.inode j hji]
    exact hn.linkPos j ⟨hj', by rw [← hdrop.inode j hji, hj.2]⟩
  · have hcon := h.tree.connected_drop hk hnames hrest hn.connected hnone
    have htree := h.tree.drop hmem hk hget hnames hrest (mem_dirs.mpr hi) h0 hnone
    rw [hdrop.dirs_eq]
    apply hcon.of_parent (Finset.Subset.refl _)
    intro d hd p hp
    exact ⟨(htree.parent_spec hd hp).1, (Parent.congr (hleft d hd)).mp hp⟩
  · have hsingle := WellFormed.single_drop hmem hk hget hnames hrest hn.single (mem_dirs.mpr hi)
      hnone
    rw [hdrop.dirs_eq]
    intro d hd
    rw [← hsingle d hd]
    exact (references_congr (fun e he => extra_congr (hleft e he)) d).symm
  · obtain ⟨hd', hdi⟩ := (hdrop.isDir d).mp hd
    by_cases hdc : d = c
    · subst hdc
      have hplain := hn.plain d hd'
      rw [dirAt_current hcur] at hplain
      rw [hdrop.keptDirs.current hd' hd hcur, hdrop.curDir]
      exact hplain.remove (h.dirOk_current hd' hcur).fits hdrop.find
    · rw [hdrop.dirAt_eq h hc hcur hd hdc]
      exact hn.plain d hd'

end Steps

/-! ## Commands -/

/-- A disk of this file system, at any time, in a run without links to directories. -/
structure Intact (s : FS) : Prop extends Rooted s where
  magic : s.superBlock.magicNumber = 0x1234FFFF
  rootInode : s.superBlock.rootDirInode = 0
  oneBlock : ∀ i, OneBlock (s.inode i)
  neat : Neat s

/-- An `mkdir` finds a free block, no link is made to a directory, and no entry is made under one of
the names `.` and `..`. -/
structure Orderly (s : FS) (l : Junk × Line) : Prop where
  hasBlock : HasBlock s l
  link : l.2.comm = str "ln" → ¬ IsDir s (searchCurDir s l.2.arg1.text) ∧ ¬ IsDots l.2.arg2.text
  create : l.2.comm = str "create" → ¬ IsDots l.2.arg1.text
  copy : l.2.comm = str "cp" → ¬ IsDots l.2.arg2.text

lemma Fresh.neat {s : FS} (h : Fresh s) : Neat s := by
  have hzero : ∀ d, IsDir s d → d = 0 := fun d hd => (h.allocated d).mp hd.1
  have hnamed : named s 0 = [0] := by
    unfold named
    rw [h.dirAt_root]
    decide
  refine ⟨fun i hi => ?_, fun d hd => ?_, fun d hd => ?_, fun d hd => ?_⟩
  · exact absurd ((h.allocated i).mp hi.1 ▸ h.isDir_root) hi.not_isDir
  · rw [hzero d (mem_dirs.mp hd)]
  · rw [hzero d (mem_dirs.mp hd), if_pos rfl]
    apply references_eq_zero
    intro e he
    rw [hzero e (mem_dirs.mp he), extra, hnamed]
    decide
  · rw [hzero d hd, h.dirAt_root]
    intro k hk hlt
    have hcount : rootDir.count = 1 := by decide
    rw [first, if_pos rfl] at hk
    omega

namespace Intact
variable {s : FS} (h : Intact s)
include h

/-- The root is nowhere entered, so that it is not removed. -/
lemma search_ne_zero {name : List UInt8} (hdots : ¬ IsDots name) : searchCurDir s name ≠ 0 := by
  intro hsearch
  obtain ⟨c, hc, hcur⟩ := h.current
  rcases h.ready.search name with ⟨-, hnone⟩ | ⟨k, hfind, hentry, -⟩
  · rw [hsearch] at hnone
    cases hnone
  · have hk := h.first_le_of_name hc hcur hfind hdots
    have hget : (named s c)[k]? = some 0 := by
      rw [named_current hcur, Dentry.getElem?_inodes (Dentry.find_some hfind).1, hentry, hsearch]
    have hzero := h.neat.single 0 h.tree.root_mem
    rw [if_pos rfl] at hzero
    exact notMem_of_references_eq_zero hzero (mem_dirs.mpr hc) (mem_extra_of_le hk hget)

lemma not_freesRoot (l : Junk × Line) : ¬ FreesRoot s l := fun hfrees =>
  h.search_ne_zero hfrees.2.2.1 hfrees.2.2.2.1

/-- A directory but the root has one link. -/
lemma linkCount_dir {i : ℤ} (hi : IsDir s i) (h0 : i ≠ 0) : (s.inode i).linkCount.toInt = 1 := by
  rw [h.dirLinks i hi h0, h.neat.single i (mem_dirs.mpr hi), if_neg h0]
  rfl

lemma removeDir_neat (junk : Junk) (name : List UInt8) : Neat (dirRemove junk name s).2 := by
  obtain ⟨c, hc, hcur⟩ := h.current
  rcases dirRemove_cases h.ready junk name with
    ⟨-, hprint⟩ | ⟨k, i, hfind, hentry, hi, hdots, hempty, ⟨-, s', heq, hdrop⟩ | ⟨hpos, -⟩⟩
  · exact h.neat.printed h.toRooted hprint
  · rw [heq]
    have h0 : i ≠ 0 := by
      rintro rfl
      exact h.search_ne_zero hdots (searchCurDir_of_find hfind hentry)
    exact h.neat.dropDir h.toRooted hc hcur hdrop hi h0 hempty hdots
  · have h0 : i ≠ 0 := by
      rintro rfl
      exact h.search_ne_zero hdots (searchCurDir_of_find hfind hentry)
    have hone := h.linkCount_dir hi h0
    rw [CInt.toInt_sub_one (by omega)] at hpos
    omega

lemma makeDir_neat (junk : Junk) (name : Word)
    (hfree : ∃ b : ℤ, 0 ≤ b ∧ b < maxBlock ∧ bitAt s.blockMap b = false) :
    Neat (dirMake junk name.text s).2 := by
  by_cases hrefused : Refused s name.text
  · obtain ⟨s', heq, hprint⟩ := dirMake_refused hrefused junk
    rw [heq]
    exact h.neat.printed h.toRooted hprint
  · obtain ⟨c, hc, hcur⟩ := h.current
    obtain ⟨i, b, s', heq, hmade, hdir⟩ := h.makeDir_made hc hcur junk hfree hrefused
    rw [heq]
    refine h.neat.makeDir h.toRooted hc hcur hmade hdir fun hdots => hrefused ?_
    exact hdots.imp id Or.inl

lemma create_neat (junk : Junk) (name : Word) (size : Int32) (hdots : ¬ IsDots name.text) :
    Neat (fileCreate junk name.text size s).2 := by
  rcases fileCreate_spec h.ready junk name.text size with
    ⟨s', heq, hprint⟩ | ⟨i, s', heq, hmade, -, hfile, -⟩
  · rw [heq]
    exact h.neat.printed h.toRooted hprint
  · rw [heq]
    exact h.neat.make h.toRooted hmade hfile hdots

lemma copy_neat (junk : Junk) (src : List UInt8) (dest : Word) (hdots : ¬ IsDots dest.text) :
    Neat (fileCopy junk src dest.text s).2 := by
  rcases fileCopy_spec h.ready junk src dest.text with
    ⟨s', heq, hprint⟩ | ⟨i, s', heq, hmade, -, -, hfile, -⟩
  · rw [heq]
    exact h.neat.printed h.toRooted hprint
  · rw [heq]
    exact h.neat.make h.toRooted hmade hfile hdots

lemma link_neat (src : List UInt8) (dest : Word) (hsrc : ¬ IsDir s (searchCurDir s src))
    (hdots : ¬ IsDots dest.text) : Neat (hardLink src dest.text s).2 := by
  by_cases hrefused : LinkRefused s src
  · obtain ⟨s', heq, hprint⟩ := hardLink_refused hrefused dest.text
    rw [heq]
    exact h.neat.printed h.toRooted hprint
  · rw [hardLink_linked hrefused]
    unfold LinkRefused at hrefused
    rw [not_or] at hrefused
    rcases h.ready.search src with ⟨-, hsearch⟩ | ⟨k, -, hentry, -⟩
    · exact absurd hsearch hrefused.1
    · rw [← hentry] at hsrc ⊢
      exact h.neat.link h.toRooted hsrc (h.ready.room hrefused.2) hdots

lemma remove_neat (junk : Junk) (name : List UInt8) : Neat (fileRemove junk name s).2 := by
  by_cases hfile : ∃ k, s.curDir.find name = some k ∧
      (s.inode (s.curDir.entry k).inode.toInt).type = .file
  · obtain ⟨k, hfind, hfile⟩ := hfile
    have hi := h.ready.entries _ (Dentry.mem_inodes.mpr ⟨k, (Dentry.find_some hfind).1, rfl⟩)
    by_cases hlast : ((s.inode (s.curDir.entry k).inode.toInt).linkCount - 1).toInt ≤ 0
    · obtain ⟨s', heq, hdrop⟩ := fileRemove_drop hfind rfl hi hfile h.store hlast junk
      rw [heq]
      exact h.neat.drop h.toRooted hdrop hfile
    · have hpos := not_le.mp hlast
      rw [fileRemove_unlink hfind rfl hi hfile hpos]
      exact h.neat.unlink h.toRooted hfind rfl hfile hpos
  · refine h.neat.printed h.toRooted (fileRemove_printed h.ready (fun k hfind htype => ?_) junk)
    exact hfile ⟨k, hfind, htype⟩

lemma neat_next {l : Junk × Line} (hl : Orderly s l) : Neat (next s l) := by
  have husage : ∀ text, Neat (printf s text) := fun text =>
    h.neat.printed h.toRooted (Printed.printf s text)
  obtain ⟨junk, comm, arg1, arg2, numArg⟩ := l
  unfold FileSys.next
  dsimp only
  by_cases hcreate : comm = str "create"
  · subst hcreate
    rw [executeCommand_create]
    split_ifs
    · exact husage _
    · exact h.create_neat junk arg1 _ (hl.create rfl)
  by_cases hrm : comm = str "rm"
  · subst hrm
    rw [executeCommand_rm]
    split_ifs
    · exact husage _
    · exact h.remove_neat junk arg1.text
  by_cases hmkdir : comm = str "mkdir"
  · subst hmkdir
    rw [executeCommand_mkdir]
    split_ifs
    · exact husage _
    · exact h.makeDir_neat junk arg1 (hl.hasBlock rfl)
  by_cases hrmdir : comm = str "rmdir"
  · subst hrmdir
    rw [executeCommand_rmdir]
    split_ifs
    · exact husage _
    · exact h.removeDir_neat junk arg1.text
  by_cases hcd : comm = str "cd"
  · subst hcd
    rw [executeCommand_cd]
    split_ifs
    · exact husage _
    · exact h.neat.moved h.toRooted (dirChange_moved s arg1.text)
  by_cases hln : comm = str "ln"
  · subst hln
    rw [executeCommand_ln]
    split_ifs
    · exact husage _
    · exact h.link_neat arg1.text arg2 (hl.link rfl).1 (hl.link rfl).2
  by_cases hcp : comm = str "cp"
  · subst hcp
    rw [executeCommand_cp]
    split_ifs
    · exact husage _
    · exact h.copy_neat junk arg1.text arg2 (hl.copy rfl)
  refine h.neat.printed h.toRooted (executeCommand_printed junk (fun hmem => ?_) s)
  unfold changers at hmem
  simp only [List.mem_cons, List.not_mem_nil, or_false] at hmem
  tauto

/-- One command. -/
theorem next {l : Junk × Line} (hl : Orderly s l) : Intact (next s l) := by
  have hkept : Kept s (FileSys.next s l) := Kept.executeCommand l.1 l.2 s
  exact { h.toRooted.next hl.hasBlock (h.not_freesRoot l) with
          magic := hkept.magic.trans h.magic
          rootInode := hkept.root.trans h.rootInode
          oneBlock := hkept.dirs h.oneBlock
          neat := h.neat_next hl }

end Intact

/-- A new disk. -/
lemma fsMountNew_intact : Intact fsMountNew := by
  have hfresh := fsMountNew_fresh
  refine { hfresh.rooted with magic := ?_, rootInode := ?_, oneBlock := ?_, neat := hfresh.neat }
  · rw [fsMountNew_eq]
    rfl
  · rw [fsMountNew_eq]
    rfl
  · rw [fsMountNew_eq]
    intro i
    by_cases hi : i = 0
    · intro _
      rw [hi]
      rfl
    · have hzero : mounted.inode i = FS.zero.inode i := Function.update_of_ne hi ..
      rw [hzero]
      intro hdir
      cases hdir

/-! ## A directory with a large file -/

/-- In the root the directory `d`, and in this the file `a`, which needs an indirect block. -/
def nestedLines : List (Junk × Line) :=
  [(Junk.zero, ⟨str "mkdir", Word.d, Word.none, 1⟩), (Junk.zero, ⟨str "cd", Word.d, Word.none, 1⟩),
    (Junk.zero, ⟨str "create", Word.a, Word.of "8000", 2⟩)]

/-- The state behind these commands, in the directory `d`. -/
def nested : FS := runCommands nestedLines fsMountNew

lemma nestedLines_orderly : Run.Each next Orderly nestedLines fsMountNew := by
  refine ⟨?_, ?_, ?_, trivial⟩
  · refine ⟨fun _ => ⟨132, by decide, by decide, ?_⟩, fun h => ?_, fun h => ?_, fun h => ?_⟩
    · have hbit := fsMountNew_fresh.blockMap 132
      rw [← Bool.not_eq_true, hbit]
      decide
    all_goals exact absurd h (by decide)
  · refine ⟨fun h => ?_, fun h => ?_, fun h => ?_, fun h => ?_⟩
    all_goals exact absurd h (by decide)
  · refine ⟨fun h => absurd h (by decide), fun h => absurd h (by decide), fun _ => ?_,
      fun h => absurd h (by decide)⟩
    unfold IsDots
    decide

lemma nested_intact : Intact nested :=
  Run.inv_of_each (fun _ _ hs hl => hs.next hl) fsMountNew_intact nestedLines_orderly

lemma nested_eq : nested = runCommands nestedLines mounted := by rw [nested, fsMountNew_eq]

lemma nested_inodes :
    (bitAt nested.inodeMap 1 = true ∧ (nested.inode 1).type = .directory) ∧
      (bitAt nested.inodeMap 2 = true ∧ (nested.inode 2).type = .file) ∧
        (fileBlocks nested.disk (nested.inode 2)).length = 17 ∧
          nested.superBlock.freeInodeCount = 509 ∧ bitAt nested.inodeMap 3 = false := by
  rw [nested_eq]
  decide +kernel

/-- The current directory is not the root. -/
lemma nested_current : nested.curDirBlock = (nested.inode 1).direct 0 ∧
    nested.curDirBlock ≠ (nested.inode 0).direct 0 := by
  rw [nested_eq]
  decide +kernel

lemma nested_isDir : IsDir nested 1 :=
  ⟨⟨by decide, by decide, nested_inodes.1.1⟩, nested_inodes.1.2⟩

lemma nested_isFile : IsFile nested 2 :=
  ⟨⟨by decide, by decide, nested_inodes.2.1.1⟩, nested_inodes.2.1.2⟩

end OsProjects.FileSys
