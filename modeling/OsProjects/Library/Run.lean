import Mathlib

/-!
# Runs

A system takes one step after another.  What a step asks for it asks of the state in
which it is taken.
-/

namespace OsProjects.Run

variable {σ α : Type} (step : σ → α → σ)

/-- Every step of a run meets the condition in the state in which it is taken. -/
def Each (cond : σ → α → Prop) : List α → σ → Prop
  | [], _ => True
  | a :: as, s => cond s a ∧ Each cond as (step s a)

/-- Every state of a run is good, the first and the last included. -/
def Always (good : σ → Prop) (as : List α) (s : σ) : Prop := ∀ p, p <+: as → good (p.foldl step s)

variable {step} {good inv : σ → Prop} {allowed cond : σ → α → Prop} {a : α} {as : List α} {s : σ}

lemma Always.first (h : Always step good as s) : good s := h [] as.nil_prefix

lemma always_cons : Always step good (a :: as) s ↔ good s ∧ Always step good as (step s a) := by
  constructor
  · intro h
    exact ⟨h.first, fun p hp => h (a :: p) (List.cons_prefix_cons.mpr ⟨rfl, hp⟩)⟩
  · rintro ⟨hs, has⟩ p hp
    rcases List.prefix_cons_iff.mp hp with rfl | ⟨t, rfl, ht⟩
    · exact hs
    · exact has t ht

/-- An invariant of the steps that meet the condition is one of the runs of such steps. -/
theorem inv_of_each (hstep : ∀ s a, inv s → cond s a → inv (step s a)) (hs : inv s)
    (hall : Each step cond as s) : inv (as.foldl step s) := by
  induction as generalizing s with
  | nil => exact hs
  | cons a as ih => exact ih (hstep s a hs hall.1) hall.2

/-- Where a step that meets the condition keeps an invariant, and any other step spoils the state,
the good runs are those whose steps all meet the condition. -/
theorem always_iff (hgood : ∀ s, inv s → good s)
    (hstep : ∀ s a, inv s → allowed s a → cond s a → inv (step s a))
    (hspoil : ∀ s a, inv s → allowed s a → ¬ cond s a → ¬ good (step s a))
    (hs : inv s) (hall : Each step allowed as s) : Always step good as s ↔ Each step cond as s := by
  induction as generalizing s with
  | nil =>
    refine iff_of_true (fun p hp => ?_) trivial
    rw [List.prefix_nil.mp hp]
    exact hgood s hs
  | cons a as ih =>
    obtain ⟨ha, hall⟩ := hall
    rw [always_cons]
    constructor
    · rintro ⟨-, has⟩
      by_cases hcond : cond s a
      · exact ⟨hcond, (ih (hstep s a hs ha hcond) hall).mp has⟩
      · exact absurd has.first (hspoil s a hs ha hcond)
    · rintro ⟨hcond, has⟩
      exact ⟨hgood s hs, (ih (hstep s a hs ha hcond) hall).mpr has⟩

end OsProjects.Run
