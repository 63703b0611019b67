import OsProjects.Fsck.Termination

/-!
# `fsck` on a file

`fsck` mounts the file, corrects the bitmaps and writes the disk back.  On the image of a
tree, no run of `correct` fails, and every one of them leaves the same maps.
-/

namespace OsProjects.Fsck
open FileSys

/-! ## `fsck` -/

/-- `main` of `fsck.c` for a file that exists: what is in the file afterwards.  A file without the
magic number is left as it is. -/
def fsck (junk : Junk) (fuel : ℕ) (file : ℤ → Block) : Except Fault (ℤ → Block) :=
  match fsMount file with
  | none => .ok file
  | some s =>
    match correct junk fuel s with
    | .error e => .error e
    | .ok s => .ok (fsUmount junk s).disk

/-! ## Runs of `correct` -/

section Correct
variable {m m' : FS} (h : TreeImage m) {junk : Junk} {fuel : ℕ}
include h

/-- Where the traversal ends does not depend on the fuel. -/
lemma TreeImage.exact_of_run {w : Locals}
    (hrun : whileLoop junk.buf fuel (startLocals junk m) = .ok w) :
    MapsOnly m w.fs ∧ Exact w.fs := by
  obtain ⟨fuel', w', hrun', hmaps, hexact⟩ := h.rebuild junk
  have hbounded := startLocals_bounded junk m
  have heq := (whileLoop_ends hbounded hrun).unique (whileLoop_ends hbounded hrun')
  have hfs : w.fs = w'.fs := congrArg Prod.fst heq
  rw [hfs]
  exact ⟨hmaps, hexact⟩

lemma TreeImage.exact_of_correct (hbad : countersAgree m = false)
    (hrun : correct junk fuel m = .ok m') : MapsOnly m m' ∧ Exact m' := by
  unfold correct at hrun
  rw [hbad] at hrun
  cases hloop : whileLoop junk.buf fuel (startLocals junk m) with
  | error e =>
    rw [hloop] at hrun
    cases hrun
  | ok w =>
    rw [hloop] at hrun
    cases hrun
    exact h.exact_of_run hloop

lemma TreeImage.correct_ok (junk : Junk) : ∃ fuel m', correct junk fuel m = .ok m' := by
  cases hagree : countersAgree m with
  | true => exact ⟨0, m, if_pos hagree⟩
  | false =>
    obtain ⟨fuel, w, hrun, -⟩ := h.rebuild junk
    refine ⟨fuel, w.fs, ?_⟩
    unfold correct
    rw [hagree, hrun]
    rfl

end Correct

end OsProjects.Fsck
