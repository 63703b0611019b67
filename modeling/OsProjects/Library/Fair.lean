import Mathlib

/-!
# Weakly fair runs

A goal is reached when some thread helps: as long as it has not moved, a rank
does not rise and it stays ready, and its step brings the rank down.
-/

namespace OsProjects.Fair
open Relation

variable {σ τ : Type*} {R : τ → σ → σ → Prop} {ready : τ → σ → Prop}

/-- An infinite run, with the thread that takes each step. -/
structure Run (R : τ → σ → σ → Prop) where
  state : ℕ → σ
  thread : ℕ → τ
  step : ∀ i, R (thread i) (state i) (state (i + 1))

/-- No thread stays ready forever without a step. -/
def Run.WeaklyFair (r : Run R) (ready : τ → σ → Prop) : Prop :=
  ∀ t i, (∀ j, i ≤ j → ready t (r.state j)) → ∃ j, i ≤ j ∧ r.thread j = t

variable (r : Run R)

/-- What every step keeps holds from then on. -/
lemma Run.always {P : σ → Prop} (hP : ∀ t s s', P s → R t s s' → P s') {i j : ℕ} (hij : i ≤ j)
    (hi : P (r.state i)) : P (r.state j) := by
  induction j, hij using Nat.le_induction with
  | base => exact hi
  | succ j _ ih => exact hP _ _ _ ih (r.step j)

/-- What every step keeps until the goal holds from then on, or the goal is reached. -/
lemma Run.until {P goal : σ → Prop}
    (hP : ∀ t s s', P s → ¬ goal s → R t s s' → goal s' ∨ P s') {i : ℕ} (hi : P (r.state i)) :
    (∃ j, i ≤ j ∧ goal (r.state j)) ∨ ∀ j, i ≤ j → P (r.state j) := by
  by_contra hno
  obtain ⟨hgoal, hall⟩ := not_or.mp hno
  apply hall
  intro j hij
  induction j, hij using Nat.le_induction with
  | base => exact hi
  | succ j hij ih =>
    rcases hP _ _ _ ih (fun h => hgoal ⟨j, hij, h⟩) (r.step j) with h | h
    · exact absurd ⟨j + 1, Nat.le_succ_of_le hij, h⟩ hgoal
    · exact h

/-- What every step keeps until the goal holds up to the first time that it is reached. -/
lemma Run.until_goal {P goal : σ → Prop}
    (hP : ∀ t s s', P s → ¬ goal s → R t s s' → goal s' ∨ P s') {i : ℕ} (hi : P (r.state i))
    (hgoal : ∃ j, i ≤ j ∧ goal (r.state j)) :
    ∃ j, i ≤ j ∧ goal (r.state j) ∧ ∀ m, i ≤ m → m < j → P (r.state m) := by
  classical
  refine ⟨Nat.find hgoal, (Nat.find_spec hgoal).1, (Nat.find_spec hgoal).2, fun m him hm => ?_⟩
  induction m, him using Nat.le_induction with
  | base => exact hi
  | succ m him ih =>
    have hbefore : ¬ goal (r.state m) := fun h =>
      Nat.find_min hgoal (Nat.lt_of_succ_lt hm) ⟨him, h⟩
    exact (hP _ _ _ (ih (Nat.lt_of_succ_lt hm)) hbefore (r.step m)).resolve_left fun h =>
      Nat.find_min hgoal hm ⟨Nat.le_succ_of_le him, h⟩

/-- The response rule: every step brings the rank down, or leaves it and every helpful thread
as it is and is not taken by one of them. -/
theorem Run.eventually (hfair : r.WeaklyFair ready) (inv goal : σ → Prop) (rank : σ → ℕ)
    (helpful : τ → σ → Prop)
    (hinv : ∀ t s s', inv s → ¬ goal s → R t s s' → goal s' ∨ inv s')
    (hhelp : ∀ s, inv s → ¬ goal s → ∃ t, helpful t s ∧ ready t s)
    (hstep : ∀ t s s', inv s → ¬ goal s → R t s s' → goal s' ∨ rank s' < rank s ∨
      rank s' = rank s ∧ ∀ u, helpful u s → ready u s → u ≠ t ∧ helpful u s' ∧ ready u s')
    {i : ℕ} (hi : inv (r.state i)) : ∃ j, i ≤ j ∧ goal (r.state j) := by
  induction hn : rank (r.state i) using Nat.strong_induction_on generalizing i with
  | _ n ih =>
    by_contra hgoal
    have hno : ∀ j, i ≤ j → ¬ goal (r.state j) := fun j hij h => hgoal ⟨j, hij, h⟩
    have hall : ∀ j, i ≤ j → inv (r.state j) := (r.until hinv hi).resolve_left hgoal
    -- a lower rank would lead to the goal, so the rank stays as it is
    have hrank : ∀ j, i ≤ j → ¬ rank (r.state j) < n := by
      intro j hij hlt
      obtain ⟨k, hjk, hk⟩ := ih _ hlt (hall j hij) rfl
      exact hgoal ⟨k, hij.trans hjk, hk⟩
    obtain ⟨t, ht, htr⟩ := hhelp _ hi (hno i le_rfl)
    have hstay : ∀ j, i ≤ j →
        rank (r.state j) = n ∧ helpful t (r.state j) ∧ ready t (r.state j) := by
      intro j hij
      induction j, hij using Nat.le_induction with
      | base => exact ⟨hn, ht, htr⟩
      | succ j hij ih' =>
        rcases hstep _ _ _ (hall j hij) (hno j hij) (r.step j) with h | h | ⟨h, hu⟩
        · exact absurd h (hno _ (Nat.le_succ_of_le hij))
        · exact absurd (ih'.1 ▸ h) (hrank _ (Nat.le_succ_of_le hij))
        · exact ⟨h.trans ih'.1, (hu t ih'.2.1 ih'.2.2).2⟩
    obtain ⟨j, hij, rfl⟩ := hfair t i fun j hij => (hstay j hij).2.2
    obtain ⟨h, hht, hrt⟩ := hstay j hij
    rcases hstep _ _ _ (hall j hij) (hno j hij) (r.step j) with h' | h' | ⟨-, hu⟩
    · exact hno _ (Nat.le_succ_of_le hij) h'
    · exact hrank _ (Nat.le_succ_of_le hij) (h ▸ h')
    · exact (hu _ hht hrt).1 rfl

/-- A finite run that ends in a loop of one thread.  It is fair where no other is ready. -/
lemma exists_loop {s s' : σ} {t : τ} (hrun : ReflTransGen (fun a b => ∃ u, R u a b) s s')
    (hloop : R t s' s') :
    ∃ r : Run R, r.state 0 = s ∧
      (∀ ready : τ → σ → Prop, (∀ u, ready u s' → u = t) → r.WeaklyFair ready) ∧
        ∃ i, r.state i = s' := by
  have h : ∃ r : Run R, r.state 0 = s ∧ ∃ i, ∀ j, i ≤ j → r.state j = s' ∧ r.thread j = t := by
    induction hrun using ReflTransGen.head_induction_on with
    | refl => exact ⟨⟨fun _ => s', fun _ => t, fun _ => hloop⟩, rfl, 0, fun _ _ => ⟨rfl, rfl⟩⟩
    | @head a b hab _ ih =>
      obtain ⟨u, hu⟩ := hab
      obtain ⟨r, hr, i, hi⟩ := ih
      refine ⟨⟨fun j => j.casesOn a r.state, fun j => j.casesOn u r.thread, ?_⟩, rfl, i + 1, ?_⟩
      · intro j
        cases j with
        | zero =>
          change R u a (r.state 0)
          rw [hr]
          exact hu
        | succ j => exact r.step j
      · intro j hj
        cases j with
        | zero => omega
        | succ j => exact hi j (Nat.le_of_succ_le_succ hj)
  obtain ⟨r, hr, i, hi⟩ := h
  refine ⟨r, hr, ?_, i, (hi i le_rfl).1⟩
  intro ready hready u k hu
  have hmax := hu (max i k) (le_max_right i k)
  rw [(hi _ (le_max_left i k)).1] at hmax
  exact ⟨max i k, le_max_right i k, (hi _ (le_max_left i k)).2.trans (hready u hmax).symm⟩

end OsProjects.Fair
