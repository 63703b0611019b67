import OsProjects.Threads.Mutex

/-!
# `pthread4.c` loses updates

The program has no data race, but what a thread stores may be out of date by
then.  `main` can print every number from 2 to the number of rounds of both
threads together, and no other one: the last store belongs to the last round of
its thread, which has loaded a counter that is not 0 any more.
-/

namespace OsProjects.Mutex
open Relation Ranked Pair

variable {program : Program} {N : ℕ} {s s' : State} {t u : Fin 2} {pc : PC}

/-! ## The bounds -/

/-- What a thread after `i` rounds can have loaded, when there have been `total` stores. -/
def PC.Loaded (i total : ℕ) : PC → Prop
  | .unlockLoad r => r ≤ total ∧ (0 < i → 1 ≤ r)
  | .add r => r ≤ total ∧ (0 < i → 1 ≤ r)
  | .lockStore r => 1 ≤ r ∧ r ≤ total + 1 ∧ (0 < i → 2 ≤ r)
  | .store r => 1 ≤ r ∧ r ≤ total + 1 ∧ (0 < i → 2 ≤ r)
  | _ => True

lemma PC.Loaded.mono {i total total' : ℕ} (h : pc.Loaded i total) (hle : total ≤ total') :
    pc.Loaded i total' := by
  cases pc with
  | unlockLoad r => exact ⟨h.1.trans hle, h.2⟩
  | add r => exact ⟨h.1.trans hle, h.2⟩
  | lockStore r => exact ⟨h.1, h.2.1.trans (Nat.succ_le_succ hle), h.2.2⟩
  | store r => exact ⟨h.1, h.2.1.trans (Nat.succ_le_succ hle), h.2.2⟩
  | _ => trivial

def State.total (s : State) : ℕ := s.stores 0 + s.stores 1

structure Loose (s : State) : Prop where
  loaded : ∀ t, (s.pc t).Loaded (s.i t) s.total
  le_total : s.counter ≤ s.total
  pos : ∀ t, 0 < s.stores t → 1 ≤ s.counter
  two_le : 2 ≤ s.counter ∨ ∃ t, s.stores t ≤ 1

lemma loose_init : Loose State.init :=
  ⟨fun _ => trivial, le_rfl, fun _ h => absurd h (Nat.lt_irrefl 0), Or.inr ⟨0, Nat.zero_le 1⟩⟩

lemma Step.total_le (hs : Step program N t s s') : s.total ≤ s'.total := by
  rw [State.total, State.total, sum_eq _ t, sum_eq s'.stores t,
    hs.stores_of_ne (other_ne t)]
  rcases hs.effect with ⟨-, -, h⟩ | ⟨-, h⟩ <;> omega

lemma Step.loaded (hl : Loose s) (hs : Step program N t s s') (u : Fin 2) :
    (s'.pc u).Loaded (s'.i u) s'.total := by
  by_cases hut : u = t
  · subst hut
    have hu := hl.loaded u
    have hle := hl.le_total
    have hmono := hs.total_le
    have hgoto : ∀ pc, (s.goto u pc).pc u = pc := fun _ => goto_pc
    -- a thread that has stored before loads at least 1
    have hpos : s.pc u = .load → 0 < s.i u → 1 ≤ s.counter := by
      intro hpc hi
      apply hl.pos u
      rw [State.stores, hpc]
      exact hi
    cases hs with
    | loadWhole hpc =>
      rw [hgoto]
      have := hpos hpc
      exact ⟨Nat.succ_pos _, Nat.succ_le_succ (hle.trans hmono),
        fun hi => Nat.succ_le_succ (this hi)⟩
    | loadSplit hpc =>
      rw [hgoto]
      exact ⟨hle.trans hmono, hpos hpc⟩
    | unlockLoad hpc =>
      rw [hpc] at hu
      simp only [hgoto]
      exact ⟨hu.1.trans hmono, hu.2⟩
    | add hpc =>
      rw [hpc] at hu
      rw [hgoto]
      exact ⟨Nat.succ_pos _, Nat.succ_le_succ (hu.1.trans hmono),
        fun hi => Nat.succ_le_succ (hu.2 hi)⟩
    | lockStore hpc =>
      rw [hpc] at hu
      simp only [hgoto]
      exact ⟨hu.1, hu.2.1.trans (Nat.succ_le_succ hmono), hu.2.2⟩
    | forTest => rw [hgoto]; trivial
    | lockLoad => simp only [hgoto]; trivial
    | store => simp only [hgoto]; trivial
    | unlockStore => simp only [hgoto]; trivial
  · rw [(hs.others hut).1, (hs.others hut).2]
    exact (hl.loaded u).mono hs.total_le

lemma Step.loose (hl : Loose s) (hs : Step program N t s s') : Loose s' := by
  have hstores : ∀ u, u ≠ t → s'.stores u = s.stores u := fun u hu => hs.stores_of_ne hu
  rcases hs.effect with ⟨hpc, hpc', ht⟩ | ⟨hc, ht⟩
  · have hload := hl.loaded t
    rw [hpc] at hload
    obtain ⟨h1, h2, h3⟩ := hload
    refine ⟨hs.loaded hl, ?_, fun _ _ => h1, ?_⟩
    · rw [State.total, sum_eq _ t] at h2 ⊢
      rw [hstores _ (other_ne t), ht]
      omega
    · by_cases hi : 0 < s.i t
      · exact Or.inl (h3 hi)
      · -- the first store of `t`
        refine Or.inr ⟨t, ?_⟩
        rw [ht, State.stores, hpc]
        simp only [reduceCtorEq, if_false]
        omega
  · have hsame : ∀ u, s'.stores u = s.stores u := by
      intro u
      by_cases hut : u = t
      · rw [hut, ht]
      · exact hstores u hut
    refine ⟨hs.loaded hl, ?_, fun u hu => ?_, ?_⟩
    · rw [hc]
      exact hl.le_total.trans hs.total_le
    · rw [hc]
      exact hl.pos u (hsame u ▸ hu)
    · rw [hc]
      simp only [hsame]
      exact hl.two_le

lemma Run.loose (hr : Run program N State.init s) : Loose s :=
  inv_of_run (fun _ _ hl ⟨_, hs⟩ => hs.loose hl) loose_init hr

lemma Loose.finished (hl : Loose s) (hf : Finished N s) (hN : 2 ≤ N) :
    2 ≤ s.counter ∧ s.counter ≤ 2 * N := by
  refine ⟨hl.two_le.resolve_right ?_, ?_⟩
  · rintro ⟨t, ht⟩
    rw [hf.stores] at ht
    omega
  · have hle := hl.le_total
    rw [State.total, hf.stores, hf.stores] at hle
    omega

/-! ## Schedules -/

/-- The mutex is free; thread `t` is at `p` after `i` rounds, the other one at `q` after `j`. -/
structure At (t : Fin 2) (counter : ℕ) (p : PC) (i : ℕ) (q : PC) (j : ℕ) (s : State) : Prop where
  owner : s.owner = none
  counter : s.counter = counter
  pc : s.pc t = p
  i : s.i t = i
  pc' : s.pc (1 - t) = q
  i' : s.i (1 - t) = j

variable {c i j r : ℕ} {p q : PC}

lemma At.symm (h : At t c p i q j s) : At (1 - t) c q j p i s := by
  have htwice : 1 - (1 - t) = t := other_other t
  exact ⟨h.owner, h.counter, h.pc', h.i', by rw [htwice]; exact h.pc, by rw [htwice]; exact h.i⟩

/-- Thread `t` loads the counter, and stops before it stores. -/
lemma At.load (h : At t c .forTest i q j s) (hi : i < N) :
    ∃ s', Run .split N s s' ∧ At t c (.lockStore (c + 1)) i q j s' := by
  let s₁ := s.goto t .lockLoad
  let s₂ : State := { s₁.goto t .load with owner := some t }
  let s₃ := s₂.goto t (.unlockLoad c)
  let s₄ : State := { s₃.goto t (.add c) with owner := none }
  let s₅ := s₄.goto t (.lockStore (c + 1))
  have h₁ : Step .split N t s s₁ := .forTest h.pc (h.i.symm ▸ hi)
  have h₂ : Step .split N t s₁ s₂ := .lockLoad goto_pc h.owner
  have h₃ : Step .split N t s₂ s₃ := by
    have := Step.loadSplit (N := N) (s := s₂) (t := t) goto_pc rfl
    rw [show s₂.counter = c from h.counter] at this
    exact this
  have h₄ : Step .split N t s₃ s₄ := .unlockLoad goto_pc
  have h₅ : Step .split N t s₄ s₅ := .add goto_pc
  refine ⟨s₅, ?_, rfl, h.counter, goto_pc, h.i, ?_, h.i'⟩
  · exact ((((ReflTransGen.single ⟨t, h₁⟩).tail ⟨t, h₂⟩).tail ⟨t, h₃⟩).tail ⟨t, h₄⟩).tail ⟨t, h₅⟩
  · rw [(h₅.others (other_ne t)).1, (h₄.others (other_ne t)).1, (h₃.others (other_ne t)).1,
      (h₂.others (other_ne t)).1, (h₁.others (other_ne t)).1, h.pc']

lemma At.store (h : At t c (.lockStore r) i q j s) :
    ∃ s', Run .split N s s' ∧ At t r .forTest (i + 1) q j s' := by
  let s₁ : State := { s.goto t (.store r) with owner := some t }
  let s₂ : State := { s₁.goto t .unlockStore with counter := r }
  let s₃ : State :=
    { s₂.goto t .forTest with owner := none, i := Function.update s₂.i t (s₂.i t + 1) }
  have h₁ : Step .split N t s s₁ := .lockStore h.pc h.owner
  have h₂ : Step .split N t s₁ s₂ := .store goto_pc
  have h₃ : Step .split N t s₂ s₃ := .unlockStore goto_pc
  refine ⟨s₃, ?_, rfl, rfl, goto_pc, ?_, ?_, ?_⟩
  · exact ((ReflTransGen.single ⟨t, h₁⟩).tail ⟨t, h₂⟩).tail ⟨t, h₃⟩
  · exact (Function.update_self _ _ _).trans (congrArg (· + 1) h.i)
  · rw [(h₃.others (other_ne t)).1, (h₂.others (other_ne t)).1, (h₁.others (other_ne t)).1, h.pc']
  · rw [(h₃.others (other_ne t)).2, (h₂.others (other_ne t)).2, (h₁.others (other_ne t)).2, h.i']

lemma At.rounds (k : ℕ) (h : At t c .forTest i q j s) (hk : i + k ≤ N) :
    ∃ s', Run .split N s s' ∧ At t (c + k) .forTest (i + k) q j s' := by
  induction k with
  | zero => exact ⟨s, .refl, h⟩
  | succ k ih =>
    obtain ⟨s₁, hr₁, h₁⟩ := ih (by omega)
    obtain ⟨s₂, hr₂, h₂⟩ := h₁.load (N := N) (by omega)
    obtain ⟨s₃, hr₃, h₃⟩ := h₂.store (N := N)
    exact ⟨s₃, (hr₁.trans hr₂).trans hr₃, h₃⟩

/-- After `a` rounds of one thread and `b` of the other one, each overwrites what the other one
does in the rounds it has left but one. -/
lemma exists_schedule {a b : ℕ} (ha : a < N) (hb : b < N) :
    ∃ s, Run .split N State.init s ∧ Finished N s ∧ s.counter = a + b + 2 := by
  have h₀ : At 0 0 .forTest 0 .forTest 0 State.init := ⟨rfl, rfl, rfl, rfl, rfl, rfl⟩
  obtain ⟨s₁, hr₁, h₁⟩ := h₀.rounds (N := N) a (by omega)
  obtain ⟨s₂, hr₂, h₂⟩ := h₁.symm.rounds (N := N) b (by omega)
  obtain ⟨s₃, hr₃, h₃⟩ := h₂.symm.load (N := N) (by omega)
  obtain ⟨s₄, hr₄, h₄⟩ := h₃.symm.rounds (N := N) (N - 1 - b) (by omega)
  obtain ⟨s₅, hr₅, h₅⟩ := h₄.symm.store (N := N)
  obtain ⟨s₆, hr₆, h₆⟩ := h₅.symm.load (N := N) (by omega)
  obtain ⟨s₇, hr₇, h₇⟩ := h₆.symm.rounds (N := N) (N - 1 - a) (by omega)
  obtain ⟨s₈, hr₈, h₈⟩ := h₇.symm.store (N := N)
  refine ⟨s₈, ((((((hr₁.trans hr₂).trans hr₃).trans hr₄).trans hr₅).trans hr₆).trans hr₇).trans hr₈,
    ?_, ?_⟩
  · refine Fin.forall_fin_two.mpr ⟨⟨h₈.pc', h₈.i'.trans ?_⟩, h₈.pc, h₈.i.trans ?_⟩
    · omega
    · omega
  · have := h₈.counter
    omega

/-- The program terminates without a data race, and prints any number from 2 on that is no larger
than twice the number of rounds of a thread. -/
theorem split_counts_iff (N : ℕ) (hN : 2 ≤ N) :
    Acc (fun s' s => ∃ t, Step .split N t s s') State.init ∧
    (∀ s, Run .split N State.init s →
      (∀ t u, (s.pc t).locked = true → (s.pc u).locked = true → u = t) ∧
      ((∀ t s', ¬ Step .split N t s s') → Finished N s)) ∧
    ∀ v, (∃ s, Run .split N State.init s ∧ Finished N s ∧ s.counter = v) ↔ 2 ≤ v ∧ v ≤ 2 * N := by
  refine ⟨acc_of_bounded bounded_init,
    fun s hr => ⟨fun t u => (hr.held held_init).unique, hr.finished⟩, fun v => ⟨?_, ?_⟩⟩
  · rintro ⟨s, hr, hf, rfl⟩
    exact hr.loose.finished hf hN
  · rintro ⟨h2, hle⟩
    obtain ⟨s, hr, hf, hv⟩ := exists_schedule (N := N) (a := min (v - 2) (N - 1))
      (b := v - 2 - min (v - 2) (N - 1)) (by omega) (by omega)
    exact ⟨s, hr, hf, by omega⟩

theorem split_counts_iff_rounds :
    ∃ s, Run .split 10000 State.init s ∧ Finished 10000 s ∧ s.counter = 2 :=
  ((split_counts_iff 10000 (by decide)).2.2 2).mpr ⟨le_rfl, by decide⟩

end OsProjects.Mutex
