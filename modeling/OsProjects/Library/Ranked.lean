import Mathlib

/-!
# Ranked systems

A system comes to its end when a rank falls, with every step or with some step
from wherever it is not at the end yet.
-/

namespace OsProjects.Ranked
open Relation

variable {σ : Type*} {R : σ → σ → Prop} {inv done : σ → Prop} {s : σ}

/-- No run is infinite. -/
theorem acc_of_rank (rank : σ → ℕ) (hstep : ∀ s s', inv s → R s s' → inv s' ∧ rank s' < rank s)
    (hs : inv s) : Acc (fun s' s => R s s') s := by
  induction hn : rank s using Nat.strong_induction_on generalizing s with
  | _ n ih =>
    refine ⟨s, fun s' hR => ?_⟩
    obtain ⟨hs', hlt⟩ := hstep s s' hs hR
    exact ih _ (hn ▸ hlt) hs' rfl

/-- Some run comes to its end. -/
theorem exists_done (rank : σ → ℕ)
    (hprogress : ∀ s, inv s → ¬ done s → ∃ s', R s s' ∧ inv s' ∧ rank s' < rank s) (hs : inv s) :
    ∃ s', ReflTransGen R s s' ∧ done s' := by
  induction hn : rank s using Nat.strong_induction_on generalizing s with
  | _ n ih =>
    by_cases hd : done s
    · exact ⟨s, .refl, hd⟩
    · obtain ⟨s₁, hR, hs₁, hlt⟩ := hprogress s hs hd
      obtain ⟨s', hrun, hd'⟩ := ih _ (hn ▸ hlt) hs₁ rfl
      exact ⟨s', .head hR hrun, hd'⟩

/-- An invariant of the steps is one of the runs. -/
theorem inv_of_run (hstep : ∀ s s', inv s → R s s' → inv s') (hs : inv s) {s' : σ}
    (hrun : ReflTransGen R s s') : inv s' := by
  induction hrun with
  | refl => exact hs
  | tail _ hR ih => exact hstep _ _ ih hR

end OsProjects.Ranked
