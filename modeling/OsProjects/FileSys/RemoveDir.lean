import OsProjects.FileSys.RemoveEntry

/-!
# Removing a directory

`dir_remove` looks at the block on the disk to see whether the directory is empty.
It then removes a link, and the directory with the last one.
-/

namespace OsProjects.FileSys

/-- The names that are refused. -/
def IsDots (name : List UInt8) : Prop :=
  command name (str ".") = true ∨ command name (str "..") = true

/-- The block of the directory `i` holds two entries. -/
def LooksEmpty (s : FS) (i : ℤ) : Prop :=
  (Dentry.ofBlock (s.disk ((s.inode i).direct 0))).numEntry = 2

section Found
variable {s : FS} {name : List UInt8} {k : ℕ} {i : ℤ} (hfind : s.curDir.find name = some k)
  (hentry : (s.curDir.entry k).inode.toInt = i) (hi : IsDir s i)
  (hblock : Marked s ((s.inode i).direct 0)) (hdots : ¬ IsDots name)
include hfind hentry hi hblock hdots

/-- What is left to decide once a directory of that name is found. -/
lemma dirRemove_found (junk : Junk) :
    dirRemove junk name s =
      if (Dentry.ofBlock (s.disk ((s.inode i).direct 0))).numEntry ≠ 2 then
        (-1, printf s (str "Directory remove failed: directory is not empty\n"))
      else (0, if ((s.inode i).linkCount - 1).toInt ≤ 0 then
          let n := { s.inode i with linkCount := (s.inode i).linkCount - 1 }
          let s := freeInode (freeBlock (writeInode s i n) ((s.inode i).direct 0)) i
          { s with curDir := s.curDir.remove name }
        else unlinked s i name) := by
  have htype : ¬ (s.inode i).type ≠ .directory := not_not.mpr hi.2
  have hnot : ¬ (command name (str ".") = true ∨ command name (str "..") = true) := hdots
  unfold dirRemove readInode
  rw [if_neg hnot]
  dsimp only
  rw [searchCurDir_of_find hfind hentry, if_neg hi.1.ne_neg_one, if_neg htype,
    readDiskBlock_eq hblock.1 hblock.2.1]
  dsimp only
  congr 1
  split_ifs <;> rfl

lemma dirRemove_eq (hempty : LooksEmpty s i) (junk : Junk) :
    dirRemove junk name s =
      (0, if ((s.inode i).linkCount - 1).toInt ≤ 0 then
          let n := { s.inode i with linkCount := (s.inode i).linkCount - 1 }
          let s := freeInode (freeBlock (writeInode s i n) ((s.inode i).direct 0)) i
          { s with curDir := s.curDir.remove name }
        else unlinked s i name) := by
  have htwo : ¬ (Dentry.ofBlock (s.disk ((s.inode i).direct 0))).numEntry ≠ 2 := not_not.mpr hempty
  rw [dirRemove_found hfind hentry hi hblock hdots, if_neg htwo]

lemma dirRemove_refused (hfull : ¬ LooksEmpty s i) (junk : Junk) :
    (dirRemove junk name s).1 = -1 ∧ Printed s (dirRemove junk name s).2 := by
  have hmore : (Dentry.ofBlock (s.disk ((s.inode i).direct 0))).numEntry ≠ 2 := hfull
  rw [dirRemove_found hfind hentry hi hblock hdots, if_pos hmore]
  exact ⟨rfl, Printed.printf s _⟩

/-- The last link of a directory goes, and the directory with it. -/
lemma dirRemove_drop (hs : Store s) (hempty : LooksEmpty s i)
    (hlast : ((s.inode i).linkCount - 1).toInt ≤ 0) (junk : Junk) :
    ∃ s', dirRemove junk name s = (0, s') ∧ Dropped s name k i s' := by
  rw [dirRemove_eq hfind hentry hi hblock hdots hempty, if_pos hlast]
  generalize hn : ({ s.inode i with linkCount := (s.inode i).linkCount - 1 } : Inode) = n
  refine ⟨_, rfl, ?_⟩
  have hgave := freeBlock_gave (s := writeInode s i n) hblock.1 hblock.2.1
  rw [← hi.owned] at hgave
  exact dropped_of_gave hs hi.1 hfind hentry hlast hgave

/-- Another link is left. -/
lemma dirRemove_unlink (hempty : LooksEmpty s i) (hpos : 0 < ((s.inode i).linkCount - 1).toInt)
    (junk : Junk) : dirRemove junk name s = (0, unlinked s i name) := by
  rw [dirRemove_eq hfind hentry hi hblock hdots hempty, if_neg (by omega)]

end Found

/-- `dir_remove` prints an error, or it removes a link to a directory that looks empty. -/
lemma dirRemove_cases {s : FS} (hs : Ready s) (junk : Junk) (name : List UInt8) :
    ((dirRemove junk name s).1 = -1 ∧ Printed s (dirRemove junk name s).2) ∨
      ∃ k i, s.curDir.find name = some k ∧ (s.curDir.entry k).inode.toInt = i ∧ IsDir s i ∧
        ¬ IsDots name ∧ LooksEmpty s i ∧
        ((((s.inode i).linkCount - 1).toInt ≤ 0 ∧
            ∃ s', dirRemove junk name s = (0, s') ∧ Dropped s name k i s') ∨
          (0 < ((s.inode i).linkCount - 1).toInt ∧
            dirRemove junk name s = (0, unlinked s i name))) := by
  have hfail : (∃ text, dirRemove junk name s = (-1, printf s text)) →
      (dirRemove junk name s).1 = -1 ∧ Printed s (dirRemove junk name s).2 := by
    rintro ⟨text, heq⟩
    rw [heq]
    exact ⟨rfl, Printed.printf s text⟩
  by_cases hdots : IsDots name
  · exact Or.inl (hfail ⟨_, if_pos hdots⟩)
  have hnot : ¬ (command name (str ".") = true ∨ command name (str "..") = true) := hdots
  rcases hs.search name with ⟨-, hsearch⟩ | ⟨k, hfind, hentry, hi⟩
  · apply Or.inl
    apply hfail
    unfold dirRemove
    rw [if_neg hnot]
    dsimp only
    rw [hsearch, if_pos rfl]
    exact ⟨_, rfl⟩
  · generalize hsearch : searchCurDir s name = i at hentry hi
    have hne := hi.ne_neg_one
    by_cases htype : (s.inode i).type = .directory
    · have hdir : IsDir s i := ⟨hi, htype⟩
      have hblock := hs.store.marked hi hdir.block_mem
      by_cases hempty : LooksEmpty s i
      · refine Or.inr ⟨k, i, hfind, hentry, hdir, hdots, hempty, ?_⟩
        by_cases hlast : ((s.inode i).linkCount - 1).toInt ≤ 0
        · have hdrop := dirRemove_drop hfind hentry hdir hblock hdots hs.store hempty hlast junk
          exact Or.inl ⟨hlast, hdrop⟩
        · have hpos : 0 < ((s.inode i).linkCount - 1).toInt := by omega
          exact Or.inr ⟨hpos, dirRemove_unlink hfind hentry hdir hblock hdots hempty hpos junk⟩
      · exact Or.inl (dirRemove_refused hfind hentry hdir hblock hdots hempty junk)
    · apply Or.inl
      apply hfail
      unfold dirRemove readInode
      rw [if_neg hnot]
      dsimp only
      rw [hsearch, if_neg hne, if_pos htype]
      exact ⟨_, rfl⟩

end OsProjects.FileSys
