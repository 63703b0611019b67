import OsProjects.FileSys.RootKept

/-!
# Names in a directory

`create` and `mkdir` look whether the name is taken, `ln` and `cp` do not.  When an entry
goes, a name that moves down is copied over an older one without its NUL, and with the rest
of the older name it may become the name of another entry.
-/

namespace OsProjects.FileSys
open Run

namespace Dentry
variable {d : Dentry} {name : List UInt8} {k : ℕ}

/-- No two entries have the same name. -/
def NamesUnique (d : Dentry) : Prop :=
  ∀ i j, i < d.count → j < d.count → (d.entry i).cstr = (d.entry j).cstr → i = j

/-- The name in the slot `j` once the one behind it is copied over it. -/
def movedName (d : Dentry) (j : ℕ) : List UInt8 :=
  ({ name := strncpy (d.entry j).name (d.entry (j + 1)).cstr
     inode := (d.entry (j + 1)).inode } : DirectoryEntry).cstr

/-- When the entry `k` goes, a name that moves down becomes that of an entry before `k` or of
another one that moves. -/
def Collides (d : Dentry) (k : ℕ) : Prop :=
  ∃ j, k ≤ j ∧ j + 1 < d.count ∧ ((∃ i < k, (d.entry i).cstr = d.movedName j) ∨
    ∃ i, k ≤ i ∧ i < j ∧ d.movedName i = d.movedName j)

/-- A name may be added exactly if it is not there. -/
lemma add_namesUnique_iff (h : d.NamesUnique) (hfits : d.Fits) (hroom : d.count < 21)
    (hname : 0 ∉ name) (hlength : name.length < 20) (z : ℤ) :
    (d.add name z).NamesUnique ↔ d.find name = none := by
  have hcount := @add_count d name hfits z
  have hlast := add_cstr hroom z hname hlength
  have hold : ∀ i, i < d.count → ((d.add name z).entry i).cstr = (d.entry i).cstr := by
    intro i hi
    rw [add_entry hroom z (by omega)]
  constructor
  · intro hunique
    cases hfind : d.find name with
    | none => rfl
    | some k =>
      obtain ⟨hk, hsame, -⟩ := find_some hfind
      have heq := hunique k d.count (by omega) (by omega) (by
        rw [hold k hk, hlast, ← command_iff.mp hsame])
      omega
  · intro hfind
    have hne : ∀ i, i < d.count → (d.entry i).cstr ≠ name := by
      intro i hi heq
      have hfalse := find_none hfind hi
      rw [heq, command_iff.mpr rfl] at hfalse
      cases hfalse
    intro i j hi hj heq
    rcases Nat.lt_or_ge i d.count with hi' | hi' <;> rcases Nat.lt_or_ge j d.count with hj' | hj'
    · rw [hold i hi', hold j hj'] at heq
      exact h i j hi' hj' heq
    · obtain rfl : j = d.count := by omega
      rw [hold i hi', hlast] at heq
      exact absurd heq (hne i hi')
    · obtain rfl : i = d.count := by omega
      rw [hold j hj', hlast] at heq
      exact absurd heq.symm (hne j hj')
    · omega

/-- An entry may be removed exactly if no name that moves collides. -/
lemma remove_namesUnique_iff (h : d.NamesUnique) (hfits : d.Fits) (hfind : d.find name = some k) :
    (d.remove name).NamesUnique ↔ ¬ d.Collides k := by
  have hk := (find_some hfind).1
  have hcount := remove_count hfits hfind
  have hlow : ∀ i, i < k → ((d.remove name).entry i).cstr = (d.entry i).cstr := by
    intro i hi
    rw [remove_entry hfits hfind hi]
  have hhigh : ∀ j, k ≤ j → j + 1 < d.count → ((d.remove name).entry j).cstr = d.movedName j := by
    intro j hkj hj
    rw [remove_entry_of_ge hfits hfind hkj hj]
    rfl
  constructor
  · rintro hunique ⟨j, hkj, hj, ⟨i, hi, heq⟩ | ⟨i, hki, hij, heq⟩⟩
    · have hsame := hunique i j (by omega) (by omega) (by rw [hlow i hi, hhigh j hkj hj, heq])
      omega
    · have hsame := hunique i j (by omega) (by omega) (by
        rw [hhigh i hki (by omega), hhigh j hkj hj, heq])
      omega
  · intro hnot
    have hne : ∀ i j, i < j → j + 1 < d.count →
        ((d.remove name).entry i).cstr ≠ ((d.remove name).entry j).cstr := by
      intro i j hij hj heq
      by_cases hjk : j < k
      · rw [hlow i (by omega), hlow j hjk] at heq
        have hsame := h i j (by omega) (by omega) heq
        omega
      · have hkj : k ≤ j := not_lt.mp hjk
        rw [hhigh j hkj hj] at heq
        by_cases hik : i < k
        · rw [hlow i hik] at heq
          exact hnot ⟨j, hkj, hj, Or.inl ⟨i, hik, heq⟩⟩
        · have hki : k ≤ i := not_lt.mp hik
          rw [hhigh i hki (by omega)] at heq
          exact hnot ⟨j, hkj, hj, Or.inr ⟨i, hki, hij, heq⟩⟩
    intro i j hi hj heq
    rcases lt_trichotomy i j with hij | hij | hij
    · exact absurd heq (hne i j hij (by omega))
    · exact hij
    · exact absurd heq.symm (hne j i hij (by omega))

end Dentry

/-- Names are unique in every directory, and the search finds the only entry of a name. -/
structure NamesUnique (s : FS) : Prop where
  entries : ∀ d, IsDir s d → (dirAt s d).NamesUnique
  search : ∀ name k, s.curDir.find name = some k →
    ∀ j < s.curDir.count, command name (s.curDir.entry j).cstr = true → j = k

lemma NamesUnique.of_entries {s : FS} {c : ℤ} (hc : IsDir s c)
    (hcur : (s.inode c).direct 0 = s.curDirBlock)
    (h : ∀ d, IsDir s d → (dirAt s d).NamesUnique) : NamesUnique s where
  entries := h
  search := by
    intro name k hfind j hj hname
    obtain ⟨hk, hfound, -⟩ := Dentry.find_some hfind
    have hunique := h c hc
    rw [dirAt_current hcur] at hunique
    apply hunique j k hj hk
    rw [← command_iff.mp hname, command_iff.mp hfound]

/-! ## One command -/

/-- The name is taken, by the test of `create` and `mkdir`. -/
def Taken (s : FS) (name : List UInt8) : Prop := 0 ≤ searchCurDir s name

lemma Ready.find_eq_none_iff {s : FS} (hs : Ready s) (name : List UInt8) :
    s.curDir.find name = none ↔ ¬ Taken s name := by
  unfold Taken
  rcases hs.search name with ⟨hfind, hsearch⟩ | ⟨k, hfind, -, hi⟩
  · rw [hfind, hsearch]
    decide
  · rw [hfind]
    simp only [reduceCtorEq, false_iff, not_not]
    exact hi.1

lemma NamesUnique.current {s : FS} {c : ℤ} (hu : NamesUnique s) (hc : IsDir s c)
    (hcur : (s.inode c).direct 0 = s.curDirBlock) : s.curDir.NamesUnique := by
  rw [← dirAt_current hcur]
  exact hu.entries c hc

section Change
variable {s s' : FS} {c : ℤ} {name : Word} (h : Rooted s) (hc : IsDir s c)
  (hcur : (s.inode c).direct 0 = s.curDirBlock) (hu : NamesUnique s)
include h hc hcur hu

/-- What matters is the current directory. -/
lemma namesUnique_iff (hkept : KeptDirs s s') (hc' : IsDir s' c)
    (hnew : ∀ d, IsDir s' d → IsDir s d ∨ (dirAt s' d).NamesUnique) :
    NamesUnique s' ↔ s'.curDir.NamesUnique := by
  have hat := hkept.current hc hc' hcur
  have hcur' : (s'.inode c).direct 0 = s'.curDirBlock := by
    rw [hkept.direct c hc hc', hkept.curDirBlock, hcur]
  constructor
  · intro hu'
    rw [← hat]
    exact hu'.entries c hc'
  · intro hcurDir
    apply NamesUnique.of_entries hc' hcur'
    intro d hd'
    rcases hnew d hd' with hd | hnew
    · by_cases hdc : d = c
      · rw [hdc, hat]
        exact hcurDir
      · rw [hkept.dirAt_eq h.store hc hcur hd hd' hdc]
        exact hu.entries d hd
    · exact hnew

section Kept
variable (hkept : KeptDirs s s') (hc' : IsDir s' c)
  (hnew : ∀ d, IsDir s' d → IsDir s d ∨ (dirAt s' d).NamesUnique)
include hkept hc' hnew

lemma namesUnique_add_iff (hroom : s.curDir.count < 21) {z : ℤ}
    (hcurDir : s'.curDir = s.curDir.add name.text z) : NamesUnique s' ↔ ¬ Taken s name.text := by
  have hlength := name.length_le
  rw [namesUnique_iff h hc hcur hu hkept hc' hnew, hcurDir,
    Dentry.add_namesUnique_iff (hu.current hc hcur) h.ready.fits hroom name.ne_zero (by omega),
    h.ready.find_eq_none_iff]

lemma namesUnique_remove_iff {k : ℕ} {old : List UInt8} (hfind : s.curDir.find old = some k)
    (hcurDir : s'.curDir = s.curDir.remove old) : NamesUnique s' ↔ ¬ s.curDir.Collides k := by
  rw [namesUnique_iff h hc hcur hu hkept hc' hnew, hcurDir,
    Dentry.remove_namesUnique_iff (hu.current hc hcur) h.ready.fits hfind]

end Kept

end Change

/-- Where nothing but the place in the tree changes, so do no names. -/
lemma Moved.namesUnique {s s' : FS} (hm : Moved s s') (h : Rooted s) (h' : Rooted s')
    (hu : NamesUnique s) : NamesUnique s' := by
  obtain ⟨c, hc, hcur⟩ := h'.current
  apply NamesUnique.of_entries hc hcur
  intro d hd
  have hd' := (hm.isDir d).mp hd
  rw [hm.dirAt_eq_of_isDir h hd']
  exact hu.entries d hd'

section Command
variable {s s' : FS} (h : Rooted s) (hu : NamesUnique s)
include h hu

lemma Printed.namesUnique (hprint : Printed s s') : NamesUnique s' :=
  hprint.moved.namesUnique h (h.print hprint) hu

/-- A new file. -/
lemma Made.namesUnique_iff {name : Word} {i : Int32} (hmade : Made s name.text i s')
    (hfile : (s'.inode i.toInt).type = .file) : NamesUnique s' ↔ ¬ Taken s name.text := by
  obtain ⟨c, hc, hcur⟩ := h.current
  have hsame := hmade.sameDirs h.store hfile
  exact namesUnique_add_iff h hc hcur hu hsame.kept ((hsame.isDir c).mpr hc)
    (fun d hd => Or.inl ((hsame.isDir d).mp hd)) hmade.room hmade.curDir

lemma create_names (junk : Junk) (name : Word) (size : Int32) :
    NamesUnique (fileCreate junk name.text size s).2 := by
  rcases fileCreate_spec h.ready junk name.text size with
    ⟨s', heq, hprint⟩ | ⟨i, s', heq, hmade, hfind, hfile, -⟩
  · rw [heq]
    exact hprint.namesUnique h hu
  · rw [heq]
    apply (hmade.namesUnique_iff h hu hfile).mpr
    exact (h.ready.find_eq_none_iff name.text).mp hfind

lemma copy_names_iff (junk : Junk) (src : List UInt8) (dest : Word) :
    NamesUnique (fileCopy junk src dest.text s).2 ↔
      ¬ (¬ CopyRefused s src ∧ Taken s dest.text) := by
  by_cases hrefused : CopyRefused s src
  · obtain ⟨s', heq, hprint⟩ := fileCopy_refused hrefused junk dest.text
    rw [heq]
    exact iff_of_true (hprint.namesUnique h hu) fun hclash => hclash.1 hrefused
  · obtain ⟨i, s', heq, hmade, -, -, hfile, -⟩ := fileCopy_made h.ready hrefused junk dest.text
    rw [heq, hmade.namesUnique_iff h hu hfile, not_and]
    exact ⟨fun hfree _ => hfree, fun hfree => hfree hrefused⟩

lemma link_names_iff (src : List UInt8) (dest : Word) :
    NamesUnique (hardLink src dest.text s).2 ↔ ¬ (¬ LinkRefused s src ∧ Taken s dest.text) := by
  by_cases hrefused : LinkRefused s src
  · obtain ⟨s', heq, hprint⟩ := hardLink_refused hrefused dest.text
    rw [heq]
    exact iff_of_true (hprint.namesUnique h hu) fun hclash => hclash.1 hrefused
  · obtain ⟨c, hc, hcur⟩ := h.current
    have hsame := (linked_relinked s (searchCurDir s src) dest.text).sameDirs
    have hroom : s.curDir.count < 21 := h.ready.room fun hfull => hrefused (Or.inr hfull)
    rw [hardLink_linked hrefused, not_and,
      namesUnique_add_iff h hc hcur hu hsame.kept ((hsame.isDir c).mpr hc)
        (fun d hd => Or.inl ((hsame.isDir d).mp hd)) hroom rfl]
    exact ⟨fun hfree _ => hfree, fun hfree => hfree hrefused⟩

/-- A new directory has two names. -/
lemma makeDir_names (junk : Junk) (name : Word)
    (hfree : ∃ b : ℤ, 0 ≤ b ∧ b < maxBlock ∧ bitAt s.blockMap b = false) :
    NamesUnique (dirMake junk name.text s).2 := by
  by_cases hrefused : Refused s name.text
  · obtain ⟨s', heq, hprint⟩ := dirMake_refused hrefused junk
    rw [heq]
    exact hprint.namesUnique h hu
  · obtain ⟨c, hc, hcur⟩ := h.current
    obtain ⟨i, b, s', heq, hmade, hdir⟩ := h.makeDir_made hc hcur junk hfree hrefused
    have hisDir := hdir.isDir hmade
    rw [heq]
    apply (namesUnique_add_iff h hc hcur hu (hmade.keptDirs h.store) ((hisDir c).mpr (Or.inl hc))
      (fun d hd => ?_) hmade.room hmade.curDir).mpr
    · intro htaken
      unfold Refused at hrefused
      unfold Taken at htaken
      tauto
    · refine ((hisDir d).mp hd).imp_right ?_
      rintro rfl
      rw [hdir.dirAt_new h hc hcur]
      have htwo : (Dentry.ofBlock (s'.disk b)).count = 2 := by
        rw [Dentry.count, hdir.numEntry]
        rfl
      intro j k hj hk hname
      rw [htwo] at hj hk
      have hne : str "." ≠ str ".." := by decide
      rcases (by omega : j = 0 ∨ j = 1) with rfl | rfl <;>
        rcases (by omega : k = 0 ∨ k = 1) with rfl | rfl
      · rfl
      · rw [hdir.dot.1, hdir.dotdot.1] at hname
        exact absurd hname hne
      · rw [hdir.dot.1, hdir.dotdot.1] at hname
        exact absurd hname.symm hne
      · rfl

lemma changeDir_names (name : List UInt8) : NamesUnique (dirChange name s).2 :=
  (dirChange_moved s name).namesUnique h (h.changeDir name) hu

/-- The last link goes, or one of several. -/
lemma remove_names_iff {k : ℕ} {i : ℤ} {name : List UInt8} (hfind : s.curDir.find name = some k)
    (hcase : (Dropped s name k i s' ∧ Rooted s') ∨ s' = unlinked s i name) :
    NamesUnique s' ↔ ¬ s.curDir.Collides k := by
  obtain ⟨c, hc, hcur⟩ := h.current
  rcases hcase with ⟨hdrop, h'⟩ | rfl
  · -- the current directory is not the one that goes
    have hic : c ≠ i := by
      rintro rfl
      obtain ⟨e, he, hecur⟩ := h'.current
      obtain ⟨he', hei⟩ := (hdrop.isDir e).mp he
      rw [hdrop.inode e hei, hdrop.curDirBlock, ← hcur] at hecur
      exact hei (IsDir.eq_of_block h.store hc he' hecur)
    exact namesUnique_remove_iff h hc hcur hu hdrop.keptDirs ((hdrop.isDir c).mpr ⟨hc, hic⟩)
      (fun d hd => Or.inl ((hdrop.isDir d).mp hd).1) hfind hdrop.curDir
  · have hsame := (unlinked_relinked s i name).sameDirs
    exact namesUnique_remove_iff h hc hcur hu hsame.kept ((hsame.isDir c).mpr hc)
      (fun d hd => Or.inl ((hsame.isDir d).mp hd)) hfind rfl

end Command

/-! ## Runs -/

/-- `file_remove` finds the file of that name, and a name that moves down collides. -/
def RemoveClashes (s : FS) (name : List UInt8) : Prop :=
  ∃ k, s.curDir.find name = some k ∧ (s.inode (s.curDir.entry k).inode.toInt).type = .file ∧
    s.curDir.Collides k

/-- `dir_remove` finds the directory of that name and takes it for empty, and a name that moves down
collides. -/
def RemoveDirClashes (s : FS) (name : List UInt8) : Prop :=
  ¬ IsDots name ∧ ∃ k, s.curDir.find name = some k ∧
    (s.inode (s.curDir.entry k).inode.toInt).type = .directory ∧
    LooksEmpty s (s.curDir.entry k).inode.toInt ∧ s.curDir.Collides k

/-- The command is an `ln` or a `cp` to a name that is taken, or an `rm` or an `rmdir` that moves a
name so that it collides, and it is not refused. -/
def Clashes (s : FS) (line : Line) : Prop :=
  let { comm, arg1, arg2, numArg } := line
  if command comm (str "ln") then
    2 ≤ numArg ∧ ¬ LinkRefused s arg1.text ∧ Taken s arg2.text
  else if command comm (str "cp") then
    2 ≤ numArg ∧ ¬ CopyRefused s arg1.text ∧ Taken s arg2.text
  else if command comm (str "rm") then 1 ≤ numArg ∧ RemoveClashes s arg1.text
  else if command comm (str "rmdir") then 1 ≤ numArg ∧ RemoveDirClashes s arg1.text
  else False

section Clashes
variable (s : FS) (arg1 arg2 : Word) (numArg : ℤ)

lemma clashes_ln : Clashes s ⟨str "ln", arg1, arg2, numArg⟩ ↔
    2 ≤ numArg ∧ ¬ LinkRefused s arg1.text ∧ Taken s arg2.text := by
  unfold Clashes
  simp only [command_self, if_true]

lemma clashes_cp : Clashes s ⟨str "cp", arg1, arg2, numArg⟩ ↔
    2 ≤ numArg ∧ ¬ CopyRefused s arg1.text ∧ Taken s arg2.text := by
  unfold Clashes
  simp (disch := decide) only [command_ne, command_self, Bool.false_eq_true, if_false, if_true]

lemma clashes_rm : Clashes s ⟨str "rm", arg1, arg2, numArg⟩ ↔
    1 ≤ numArg ∧ RemoveClashes s arg1.text := by
  unfold Clashes
  simp (disch := decide) only [command_ne, command_self, Bool.false_eq_true, if_false, if_true]

lemma clashes_rmdir : Clashes s ⟨str "rmdir", arg1, arg2, numArg⟩ ↔
    1 ≤ numArg ∧ RemoveDirClashes s arg1.text := by
  unfold Clashes
  simp (disch := decide) only [command_ne, command_self, Bool.false_eq_true, if_false, if_true]

lemma not_clashes {line : Line} (hln : line.comm ≠ str "ln") (hcp : line.comm ≠ str "cp")
    (hrm : line.comm ≠ str "rm") (hrmdir : line.comm ≠ str "rmdir") : ¬ Clashes s line := by
  unfold Clashes
  dsimp only
  rw [command_ne hln, command_ne hcp, command_ne hrm, command_ne hrmdir]
  exact not_false

end Clashes

section Run
variable {s : FS} (h : Rooted s) (hu : NamesUnique s)
include h hu

lemma removeFile_names_iff (junk : Junk) (name : List UInt8) :
    NamesUnique (fileRemove junk name s).2 ↔ ¬ RemoveClashes s name := by
  by_cases hfile : ∃ k, s.curDir.find name = some k ∧
      (s.inode (s.curDir.entry k).inode.toInt).type = .file
  · obtain ⟨k, hfind, hfile⟩ := hfile
    have hstep := h.fileStep (fileRemove_step h.ready junk name)
    have hi := h.ready.entries _ (Dentry.mem_inodes.mpr ⟨k, (Dentry.find_some hfind).1, rfl⟩)
    have hclash : RemoveClashes s name ↔ s.curDir.Collides k := by
      constructor
      · rintro ⟨j, hj, -, hcollides⟩
        rw [hfind] at hj
        exact Option.some.inj hj ▸ hcollides
      · exact fun hcollides => ⟨k, hfind, hfile, hcollides⟩
    rw [hclash]
    apply remove_names_iff h hu hfind
    by_cases hlast : ((s.inode (s.curDir.entry k).inode.toInt).linkCount - 1).toInt ≤ 0
    · obtain ⟨s', heq, hdrop⟩ := fileRemove_drop hfind rfl hi hfile h.store hlast junk
      rw [heq] at hstep ⊢
      exact Or.inl ⟨hdrop, hstep⟩
    · exact Or.inr (congrArg Prod.snd (fileRemove_unlink hfind rfl hi hfile (not_le.mp hlast) junk))
  · have hprint := fileRemove_printed h.ready
      (fun k hfind htype => hfile ⟨k, hfind, htype⟩) junk
    refine iff_of_true (hprint.namesUnique h hu) ?_
    rintro ⟨k, hfind, htype, -⟩
    exact hfile ⟨k, hfind, htype⟩

lemma removeDir_names_iff (junk : Junk) (name : List UInt8)
    (hroot : ¬ (¬ IsDots name ∧ searchCurDir s name = 0 ∧ LooksEmpty s 0 ∧
      ((s.inode 0).linkCount - 1).toInt ≤ 0)) :
    NamesUnique (dirRemove junk name s).2 ↔ ¬ RemoveDirClashes s name := by
  have hstep := h.removeDir junk name hroot
  by_cases hdir : ¬ IsDots name ∧ ∃ k, s.curDir.find name = some k ∧
      (s.inode (s.curDir.entry k).inode.toInt).type = .directory ∧
      LooksEmpty s (s.curDir.entry k).inode.toInt
  · obtain ⟨hdots, k, hfind, htype, hempty⟩ := hdir
    have hi : IsDir s (s.curDir.entry k).inode.toInt :=
      ⟨h.ready.entries _ (Dentry.mem_inodes.mpr ⟨k, (Dentry.find_some hfind).1, rfl⟩), htype⟩
    have hblock := h.store.marked hi.1 hi.block_mem
    have hclash : RemoveDirClashes s name ↔ s.curDir.Collides k := by
      constructor
      · rintro ⟨-, j, hj, -, -, hcollides⟩
        rw [hfind] at hj
        exact Option.some.inj hj ▸ hcollides
      · exact fun hcollides => ⟨hdots, k, hfind, htype, hempty, hcollides⟩
    rw [hclash]
    apply remove_names_iff h hu hfind
    by_cases hlast : ((s.inode (s.curDir.entry k).inode.toInt).linkCount - 1).toInt ≤ 0
    · obtain ⟨s', heq, hdrop⟩ := dirRemove_drop hfind rfl hi hblock hdots h.store hempty hlast junk
      rw [heq] at hstep ⊢
      exact Or.inl ⟨hdrop, hstep⟩
    · exact Or.inr (congrArg Prod.snd
        (dirRemove_unlink hfind rfl hi hblock hdots hempty (not_le.mp hlast) junk))
  · rcases dirRemove_cases h.ready junk name with
      ⟨-, hprint⟩ | ⟨k, i, hfind, hentry, hi, hdots, hempty, -⟩
    · refine iff_of_true (hprint.namesUnique h hu) ?_
      rintro ⟨hdots, k, hfind, htype, hempty, -⟩
      exact hdir ⟨hdots, k, hfind, htype, hempty⟩
    · rw [← hentry] at hi hempty
      exact absurd ⟨hdots, k, hfind, hi.2, hempty⟩ hdir

/-- One command. -/
lemma next_names_iff {l : Junk × Line} (hblock : HasBlock s l) (hroot : ¬ FreesRoot s l) :
    NamesUnique (next s l) ↔ ¬ Clashes s l.2 := by
  have hprint : ∀ text, NamesUnique (printf s text) := fun text =>
    (Printed.printf s text).namesUnique h hu
  obtain ⟨junk, comm, arg1, arg2, numArg⟩ := l
  unfold next
  dsimp only
  -- four commands can make a second entry of a name
  by_cases hln : comm = str "ln"
  · subst hln
    rw [executeCommand_ln, clashes_ln]
    split_ifs with hnum
    · exact iff_of_true (hprint _) fun hclash => absurd hclash.1 (not_le.mpr hnum)
    · rw [link_names_iff h hu, and_iff_right (not_lt.mp hnum)]
  by_cases hcp : comm = str "cp"
  · subst hcp
    rw [executeCommand_cp, clashes_cp]
    split_ifs with hnum
    · exact iff_of_true (hprint _) fun hclash => absurd hclash.1 (not_le.mpr hnum)
    · rw [copy_names_iff h hu, and_iff_right (not_lt.mp hnum)]
  by_cases hrm : comm = str "rm"
  · subst hrm
    rw [executeCommand_rm, clashes_rm]
    split_ifs with hnum
    · exact iff_of_true (hprint _) fun hclash => absurd hclash.1 (not_le.mpr hnum)
    · rw [removeFile_names_iff h hu, and_iff_right (not_lt.mp hnum)]
  by_cases hrmdir : comm = str "rmdir"
  · subst hrmdir
    rw [executeCommand_rmdir, clashes_rmdir]
    split_ifs with hnum
    · exact iff_of_true (hprint _) fun hclash => absurd hclash.1 (not_le.mpr hnum)
    · rw [removeDir_names_iff h hu junk arg1.text fun hfrees => hroot ⟨rfl, not_lt.mp hnum, hfrees⟩,
        and_iff_right (not_lt.mp hnum)]
  -- the other commands look for the name first, or add and remove none
  refine iff_of_true ?_ (not_clashes s hln hcp hrm hrmdir)
  by_cases hcreate : comm = str "create"
  · subst hcreate
    rw [executeCommand_create]
    split_ifs
    · exact hprint _
    · exact create_names h hu junk arg1 _
  by_cases hmkdir : comm = str "mkdir"
  · subst hmkdir
    rw [executeCommand_mkdir]
    split_ifs
    · exact hprint _
    · exact makeDir_names h hu junk arg1 (hblock rfl)
  by_cases hcd : comm = str "cd"
  · subst hcd
    rw [executeCommand_cd]
    split_ifs
    · exact hprint _
    · exact changeDir_names h hu arg1.text
  · refine (executeCommand_printed junk (fun hmem => ?_) s).namesUnique h hu
    unfold changers at hmem
    simp only [List.mem_cons, List.not_mem_nil, or_false] at hmem
    tauto

end Run

/-- Where every `mkdir` finds a free block and no `rmdir` frees the root, names are unique in all
states of a run exactly if no command clashes. -/
theorem names_unique_iff (lines : List (Junk × Line))
    (hsound : Each next (fun s l => HasBlock s l ∧ ¬ FreesRoot s l) lines fsMountNew) :
    (∀ p, p <+: lines → NamesUnique (runCommands p fsMountNew)) ↔
      Each next (fun s l => ¬ Clashes s l.2) lines fsMountNew := by
  have hfresh := fsMountNew_fresh
  have hfirst : NamesUnique fsMountNew := by
    apply NamesUnique.of_entries hfresh.isDir_root hfresh.current
    intro d hd
    rw [(hfresh.allocated d).mp hd.1, hfresh.dirAt_root]
    intro i j hi hj _
    have hcount : rootDir.count = 1 := rfl
    omega
  have hiff : Always next NamesUnique lines fsMountNew ↔
      Each next (fun s l => ¬ Clashes s l.2) lines fsMountNew := by
    refine always_iff (fun s (h : Rooted s ∧ NamesUnique s) => h.2) ?_ ?_ ⟨hfresh.rooted, hfirst⟩
      hsound
    · rintro s l ⟨h, hu⟩ ⟨hblock, hroot⟩ hclash
      exact ⟨h.next hblock hroot, (next_names_iff h hu hblock hroot).mpr hclash⟩
    · rintro s l ⟨h, hu⟩ ⟨hblock, hroot⟩ hclash hu'
      exact hclash ((next_names_iff h hu hblock hroot).mp hu')
  exact hiff

/-- A directory is made and gets a second name. -/
def secondName : List (Junk × Line) :=
  [(Junk.zero, ⟨str "mkdir", Word.d, Word.none, 1⟩),
    (Junk.zero, ⟨str "ln", Word.d, Word.e, 2⟩)]

theorem names_unique_iff_secondName : NamesUnique (runCommands secondName fsMountNew) := by
  have hfree : bitAt fsMountNew.blockMap 132 = false := by
    rw [fsMountNew_eq]
    decide
  have hsound : Each next (fun s l => HasBlock s l ∧ ¬ FreesRoot s l) secondName fsMountNew :=
    ⟨⟨fun _ => ⟨132, by decide, by decide, hfree⟩, fun hfrees => absurd hfrees.1 (by decide)⟩,
      ⟨fun hcomm => absurd hcomm (by decide), fun hfrees => absurd hfrees.1 (by decide)⟩, trivial⟩
  have hkeeps : Each next (fun s l => ¬ Clashes s l.2) secondName fsMountNew := by
    refine ⟨not_clashes _ (by decide) (by decide) (by decide) (by decide), fun hclash => ?_,
      trivial⟩
    obtain ⟨-, -, htaken⟩ := (clashes_ln _ _ _ _).mp hclash
    rw [fsMountNew_eq] at htaken
    revert htaken
    unfold Taken
    decide +kernel
  exact (names_unique_iff secondName hsound).mpr hkeeps secondName (List.prefix_refl _)

/-- A file is linked to its own name. -/
def linkTwice : List (Junk × Line) :=
  [(Junk.zero, ⟨str "create", Word.a, Word.one, 2⟩),
    (Junk.zero, ⟨str "ln", Word.a, Word.a, 2⟩)]

/-- The name `a` moves over `xb` and becomes `ab` -/
def moveOver : List (Junk × Line) :=
  [(Junk.zero, ⟨str "create", Word.ab, Word.one, 2⟩),
    (Junk.zero, ⟨str "create", Word.xb, Word.one, 2⟩),
    (Junk.zero, ⟨str "create", Word.a, Word.one, 2⟩),
    (Junk.zero, ⟨str "rm", Word.xb, Word.none, 1⟩)]

/-- The search does not find the second entry of a name. -/
theorem names_unique_fails : ¬ NamesUnique (runCommands linkTwice fsMountNew) ∧
    ¬ NamesUnique (runCommands moveOver fsMountNew) := by
  rw [fsMountNew_eq]
  constructor
  · intro hu
    have hsecond :=
      hu.search (str "a") 1 (by decide +kernel) 2 (by decide +kernel) (by decide +kernel)
    cases hsecond
  · intro hu
    have hsecond :=
      hu.search (str "ab") 1 (by decide +kernel) 2 (by decide +kernel) (by decide +kernel)
    cases hsecond

end OsProjects.FileSys
