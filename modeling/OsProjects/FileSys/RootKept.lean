import OsProjects.FileSys.Tree
import OsProjects.Library.Run

/-!
# The root and the current directory

In any run of commands the root stays and the current directory is a directory, with one
exception: the link count of the root starts at 0, so that a link to it that is made and
removed takes the root with it, if the root looks empty then.
-/

namespace OsProjects.FileSys
open Run

/-- A command, in the junk that it finds. -/
def next (s : FS) (l : Junk × Line) : FS := (executeCommand l.1 l.2 s).2

/-- An `mkdir` finds a free block. -/
def HasBlock (s : FS) (l : Junk × Line) : Prop :=
  l.2.comm = str "mkdir" → ∃ b : ℤ, 0 ≤ b ∧ b < maxBlock ∧ bitAt s.blockMap b = false

/-- An `rmdir` of a link to the root, when no more than one is counted and the block of the root
holds two entries. -/
def FreesRoot (s : FS) (l : Junk × Line) : Prop :=
  l.2.comm = str "rmdir" ∧ 1 ≤ l.2.numArg ∧ ¬ IsDots l.2.arg1.text ∧
    searchCurDir s l.2.arg1.text = 0 ∧ LooksEmpty s 0 ∧ ((s.inode 0).linkCount - 1).toInt ≤ 0

/-- The root is an allocated directory with a marked block, and so is the current directory. -/
structure RootKept (s : FS) : Prop where
  root : Allocated s 0 ∧ (s.inode 0).type = .directory
  rootBlock : Marked s ((s.inode 0).direct 0)
  curDirBlock : Marked s s.curDirBlock
  current : ∃ d, Allocated s d ∧ (s.inode d).type = .directory ∧
    (s.inode d).direct 0 = s.curDirBlock

namespace Rooted
variable {s : FS} (h : Rooted s)
include h

lemma rootKept : RootKept s := by
  obtain ⟨c, hc, hcur⟩ := h.current
  have hroot := h.isDir_root
  refine ⟨hroot, h.store.marked hroot.1 hroot.block_mem, ?_, c, hc.1, hc.2, hcur⟩
  rw [← hcur]
  exact h.store.marked hc.1 hc.block_mem

/-- A free block is all that `mkdir` needs when it is not refused. -/
lemma makeDir_made {c : ℤ} (hc : IsDir s c) (hcur : (s.inode c).direct 0 = s.curDirBlock)
    (junk : Junk) {name : Word} (hfree : ∃ b : ℤ, 0 ≤ b ∧ b < maxBlock ∧ bitAt s.blockMap b = false)
    (hrefused : ¬ Refused s name.text) :
    ∃ i b s', dirMake junk name.text s = (0, s') ∧ Made s name.text i s' ∧
      DirMade s name.text c i b s' := by
  have hlength := name.length_le
  have hpos : 0 < s.superBlock.freeBlockCount.toInt := by
    obtain ⟨b, h0, hlt, hbit⟩ := hfree
    have htake := FirstFit.freeCount_take h0 hlt hbit
    have hblocks := h.store.blocks
    unfold BlocksCounted at hblocks
    omega
  exact dirMake_made (h.anchored hc hcur) name.ne_zero (by omega) hrefused hpos junk

lemma makeDir (junk : Junk) (name : Word)
    (hfree : ∃ b : ℤ, 0 ≤ b ∧ b < maxBlock ∧ bitAt s.blockMap b = false) :
    Rooted (dirMake junk name.text s).2 := by
  by_cases hrefused : Refused s name.text
  · obtain ⟨s', heq, hprint⟩ := dirMake_refused hrefused junk
    rw [heq]
    exact h.print hprint
  · obtain ⟨c, hc, hcur⟩ := h.current
    obtain ⟨i, b, s', heq, hmade, hdir⟩ := h.makeDir_made hc hcur junk hfree hrefused
    rw [heq]
    exact hdir.rooted h hc hcur hmade

/-- `rmdir` keeps the tree, unless it takes the root away. -/
lemma removeDir (junk : Junk) (name : List UInt8)
    (hroot : ¬ (¬ IsDots name ∧ searchCurDir s name = 0 ∧ LooksEmpty s 0 ∧
      ((s.inode 0).linkCount - 1).toInt ≤ 0)) : Rooted (dirRemove junk name s).2 := by
  obtain ⟨c, hc, hcur⟩ := h.current
  rcases dirRemove_cases h.ready junk name with
    ⟨-, hprint⟩ | ⟨k, i, hfind, hentry, hi, hdots, hempty, ⟨hlast, s', heq, hdrop⟩ | ⟨hpos, heq⟩⟩
  · exact h.print hprint
  · rw [heq]
    have h0 : i ≠ 0 := by
      rintro rfl
      exact hroot ⟨hdots, searchCurDir_of_find hfind hentry, hempty, hlast⟩
    exact hdrop.dir_rooted h hc hcur hi h0 hempty hdots
  · rw [heq]
    exact h.unlinkDir hc hcur hi hempty hdots hfind hentry hpos

/-- One command. -/
lemma next {l : Junk × Line} (hblock : HasBlock s l) (hroot : ¬ FreesRoot s l) :
    Rooted (next s l) := by
  unfold FileSys.next
  by_cases hfile : l.2.comm ∈ fileCommands
  · exact h.fileStep (executeCommand_step h.ready l.1 hfile)
  obtain ⟨junk, comm, arg1, arg2, numArg⟩ := l
  by_cases hmkdir : comm = str "mkdir"
  · subst hmkdir
    rw [executeCommand_mkdir]
    split_ifs
    · exact h.print (Printed.printf s _)
    · exact h.makeDir junk arg1 (hblock rfl)
  by_cases hrmdir : comm = str "rmdir"
  · subst hrmdir
    rw [executeCommand_rmdir]
    split_ifs with hnum
    · exact h.print (Printed.printf s _)
    · refine h.removeDir junk arg1.text fun hfrees => hroot ⟨rfl, ?_, hfrees⟩
      exact not_lt.mp hnum
  by_cases hcd : comm = str "cd"
  · subst hcd
    rw [executeCommand_cd]
    split_ifs
    · exact h.print (Printed.printf s _)
    · exact h.changeDir arg1.text
  · refine h.print (executeCommand_printed junk (fun hmem => ?_) s)
    -- the other commands that change something are file commands
    unfold fileCommands at hfile
    unfold changers at hmem
    simp only [List.mem_cons, List.not_mem_nil, or_false] at hfile hmem
    tauto

/-- The root is gone. -/
lemma freesRoot {l : Junk × Line} (hfrees : FreesRoot s l) : ¬ RootKept (FileSys.next s l) := by
  obtain ⟨junk, comm, arg1, arg2, numArg⟩ := l
  obtain ⟨hcomm, hnum, hdots, hsearch, hempty, hlast⟩ := hfrees
  obtain rfl : comm = str "rmdir" := hcomm
  have hroot := h.isDir_root
  rcases h.ready.search arg1.text with ⟨-, hnone⟩ | ⟨k, hfind, hentry, -⟩
  · rw [hsearch] at hnone
    cases hnone
  · rw [hsearch] at hentry
    obtain ⟨s', heq, hdrop⟩ := dirRemove_drop hfind hentry hroot
      (h.store.marked hroot.1 hroot.block_mem) hdots h.store hempty hlast junk
    unfold FileSys.next
    rw [executeCommand_rmdir, if_neg (not_lt.mpr hnum), heq]
    intro hkept
    exact ((hdrop.allocated 0).mp hkept.root.1).2 rfl

end Rooted

/-- Where every `mkdir` finds a free block, the root and the current directory stay in all states of
a run exactly if no `rmdir` frees the root. -/
theorem root_kept_iff (lines : List (Junk × Line)) (hblocks : Each next HasBlock lines fsMountNew) :
    (∀ p, p <+: lines → RootKept (runCommands p fsMountNew)) ↔
      Each next (fun s l => ¬ FreesRoot s l) lines fsMountNew := by
  have hiff : Always next RootKept lines fsMountNew ↔
      Each next (fun s l => ¬ FreesRoot s l) lines fsMountNew := by
    apply always_iff (fun s (h : Rooted s) => h.rootKept)
    · exact fun s l h hblock hroot => h.next hblock hroot
    · exact fun s l h _ hfrees => h.freesRoot (not_not.mp hfrees)
    · exact fsMountNew_fresh.rooted
    · exact hblocks
  exact hiff

/-- A directory is made and entered. -/
def subdirectory : List (Junk × Line) :=
  [(Junk.zero, ⟨str "mkdir", Word.d, Word.none, 1⟩),
    (Junk.zero, ⟨str "cd", Word.d, Word.none, 1⟩)]

theorem root_kept_iff_subdirectory : RootKept (runCommands subdirectory fsMountNew) := by
  have hfree : bitAt fsMountNew.blockMap 132 = false := by
    rw [fsMountNew_eq]
    decide
  have hblocks : Each next HasBlock subdirectory fsMountNew :=
    ⟨fun _ => ⟨132, by decide, by decide, hfree⟩, fun hcomm => absurd hcomm (by decide), trivial⟩
  have hkeeps : Each next (fun s l => ¬ FreesRoot s l) subdirectory fsMountNew :=
    ⟨fun hfrees => absurd hfrees.1 (by decide), fun hfrees => absurd hfrees.1 (by decide), trivial⟩
  exact (root_kept_iff subdirectory hblocks).mpr hkeeps subdirectory (List.prefix_refl _)

/-- A link to the root is made, the root is saved, and the link is removed. -/
def rootLink : List (Junk × Line) :=
  [(Junk.zero, ⟨str "ln", Word.dot, Word.x, 2⟩),
    (Junk.zero, ⟨str "cd", Word.dot, Word.none, 1⟩),
    (Junk.zero, ⟨str "rmdir", Word.x, Word.none, 1⟩)]

/-- The root is freed. -/
theorem root_kept_rootLink :
    Each next HasBlock rootLink fsMountNew ∧ ¬ RootKept (runCommands rootLink fsMountNew) := by
  constructor
  · refine ⟨fun hcomm => ?_, fun hcomm => ?_, fun hcomm => ?_, trivial⟩
    · exact absurd hcomm (by decide)
    · exact absurd hcomm (by decide)
    · exact absurd hcomm (by decide)
  · intro hkept
    have hbit := hkept.root.1.2.2
    rw [fsMountNew_eq] at hbit
    revert hbit
    decide +kernel

end OsProjects.FileSys
