import OsProjects.Paging.Service

/-!
# Observing a run

An observer sees the machine before and after each request and notes what it
wants, and an abstract machine takes the same requests.  What holds of the three
at the start, and is kept by every access, holds of them at the end.
-/

namespace OsProjects.Paging

variable {γ : Type} {c : Config} {note : γ → VM → Request → VM → γ}

/-- The notes on a run of the loop of `main`. -/
def observe (note : γ → VM → Request → VM → γ) (c : Config) (s : VM) (g : γ) : List Request → γ
  | [] => g
  | r :: rs =>
    match serve c s r with
    | .error _ => g
    | .ok (reply, s') =>
      if reply.exits then note g s r s' else observe note c s' (note g s r s') rs

/-- A run of requests in range beside an abstract machine `d` that takes the same requests. -/
theorem run_simulated (hl : c.replacementPolicy = .LRU → 2 ≤ c.maxPFN) {δ : Type}
    (step : δ → Request → δ) (d : δ) {P : VM → γ → δ → Prop}
    (hstep : ∀ {s s' : VM} {g : γ} {d : δ} {r : Request} {f : ℤ} {b : Bool}, Inv c s → P s g d →
      c.InRange r → Access c s r.page r.reqType f b s' →
        P (finish s' r f) (note g s r (finish s' r f)) (step d r))
    {s : VM} {g : γ} {rs : List Request} (hrs : ∀ r ∈ rs, c.InRange r) (hi : Inv c s)
    (hg : P s g d) :
    ∃ s', (run c s rs).2 = .ok s' ∧ Inv c s' ∧ P s' (observe note c s g rs) (rs.foldl step d) := by
  induction rs generalizing s g d with
  | nil => exact ⟨s, rfl, hi, hg⟩
  | cons r rs ih =>
    have hr := hrs r List.mem_cons_self
    rcases serve_in_range hi hr with ⟨f, b, s₁, ha, hserve⟩ | ⟨h1, h2, -⟩
    · obtain ⟨s', hrun, hi', hg'⟩ := ih (step d r) (fun q hq => hrs q (List.mem_cons_of_mem _ hq))
        ((ha.inv hi hr.hasPage).finish r f) (hstep hi hg hr ha)
      refine ⟨s', ?_, hi', ?_⟩
      · rw [run, hserve]
        simp only [replyOf_exits]
        exact hrun
      · rw [observe, hserve]
        simp only [replyOf_exits]
        exact hg'
    · have := hl h1
      omega

/-- A run of requests in range, with what is kept about the machine and the notes. -/
theorem run_observed (hl : c.replacementPolicy = .LRU → 2 ≤ c.maxPFN) {P : VM → γ → Prop}
    (hstep : ∀ {s s' : VM} {g : γ} {r : Request} {f : ℤ} {b : Bool}, Inv c s → P s g →
      c.InRange r → Access c s r.page r.reqType f b s' →
        P (finish s' r f) (note g s r (finish s' r f)))
    {s : VM} {g : γ} {rs : List Request} (hrs : ∀ r ∈ rs, c.InRange r) (hi : Inv c s)
    (hg : P s g) :
    ∃ s', (run c s rs).2 = .ok s' ∧ Inv c s' ∧ P s' (observe note c s g rs) :=
  run_simulated (P := fun s g _ => P s g) hl (fun d _ => d) ()
    (fun hi hg hr ha => hstep hi hg hr ha) hrs hi hg

end OsProjects.Paging
