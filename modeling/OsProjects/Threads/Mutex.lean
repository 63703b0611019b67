import OsProjects.Library.Pair
import OsProjects.Library.Ranked

/-!
# `pthread_lock.c`, `pthread3.c` and `pthread4.c`

Two threads count under a mutex.  The first two programs hold it for the whole
of `counter = counter + 1`, the third one for the load and for the store, but
lets it go in between.
-/

namespace OsProjects.Mutex
open Relation Ranked Pair

/-- `whole` is `mythread` of `pthread_lock.c` and of `pthread3.c`, `split` that of `pthread4.c`. -/
inductive Program
  | whole
  | split
  deriving DecidableEq

/-- The next statement of `mythread`, with the local variable `r`. -/
inductive PC
  | forTest
  | lockLoad
  | load
  | unlockLoad (r : ℕ)
  | add (r : ℕ)
  | lockStore (r : ℕ)
  | store (r : ℕ)
  | unlockStore
  deriving DecidableEq

structure State where
  owner : Option (Fin 2)
  counter : ℕ
  pc : Fin 2 → PC
  i : Fin 2 → ℕ

def State.init : State where
  owner := none
  counter := 0
  pc := fun _ => .forTest
  i := fun _ => 0

def State.goto (s : State) (t : Fin 2) (pc : PC) : State :=
  { s with pc := Function.update s.pc t pc }

/-- The steps of thread `t` in `N` rounds, which are `10000` in the source. -/
inductive Step (program : Program) (N : ℕ) (t : Fin 2) (s : State) : State → Prop
  | forTest (hpc : s.pc t = .forTest) (hi : s.i t < N) : Step program N t s (s.goto t .lockLoad)
  | lockLoad (hpc : s.pc t = .lockLoad) (hfree : s.owner = none) :
      Step program N t s { s.goto t .load with owner := some t }
  | loadWhole (hpc : s.pc t = .load) (hprogram : program = .whole) :
      Step program N t s (s.goto t (.store (s.counter + 1)))
  | loadSplit (hpc : s.pc t = .load) (hprogram : program = .split) :
      Step program N t s (s.goto t (.unlockLoad s.counter))
  | unlockLoad {r : ℕ} (hpc : s.pc t = .unlockLoad r) :
      Step program N t s { s.goto t (.add r) with owner := none }
  | add {r : ℕ} (hpc : s.pc t = .add r) : Step program N t s (s.goto t (.lockStore (r + 1)))
  | lockStore {r : ℕ} (hpc : s.pc t = .lockStore r) (hfree : s.owner = none) :
      Step program N t s { s.goto t (.store r) with owner := some t }
  | store {r : ℕ} (hpc : s.pc t = .store r) :
      Step program N t s { s.goto t .unlockStore with counter := r }
  | unlockStore (hpc : s.pc t = .unlockStore) :
      Step program N t s
        { s.goto t .forTest with owner := none, i := Function.update s.i t (s.i t + 1) }

/-- The runs: any thread may take the next step. -/
def Run (program : Program) (N : ℕ) : State → State → Prop :=
  ReflTransGen fun s s' => ∃ t, Step program N t s s'

def Finished (N : ℕ) (s : State) : Prop := ∀ t, s.pc t = .forTest ∧ s.i t = N

/-- The thread has the mutex. -/
def PC.locked : PC → Bool
  | .load => true
  | .unlockLoad _ => true
  | .store _ => true
  | .unlockStore => true
  | _ => false

/-- The stores a thread has done. -/
def State.stores (s : State) (t : Fin 2) : ℕ :=
  s.i t + if s.pc t = .unlockStore then 1 else 0

variable {program : Program} {N : ℕ} {s s' : State} {t u : Fin 2} {pc : PC}

@[simp] lemma goto_pc : (s.goto t pc).pc t = pc := Function.update_self _ _ _

lemma goto_pc_of_ne (h : u ≠ t) : (s.goto t pc).pc u = s.pc u := Function.update_of_ne h _ _

/-- A step of `t` leaves the other thread where it is. -/
lemma Step.others (hs : Step program N t s s') (hu : u ≠ t) :
    s'.pc u = s.pc u ∧ s'.i u = s.i u := by
  cases hs with
  | unlockStore => exact ⟨goto_pc_of_ne hu, Function.update_of_ne hu _ _⟩
  | _ => exact ⟨goto_pc_of_ne hu, rfl⟩

lemma Step.stores_of_ne (hs : Step program N t s s') (hu : u ≠ t) : s'.stores u = s.stores u := by
  obtain ⟨hpc, hi⟩ := hs.others hu
  rw [State.stores, State.stores, hpc, hi]

/-- A step stores into the counter, or the counter and the number of stores stay. -/
lemma Step.effect (hs : Step program N t s s') :
    (s.pc t = .store s'.counter ∧ s'.pc t = .unlockStore ∧ s'.stores t = s.stores t + 1) ∨
    (s'.counter = s.counter ∧ s'.stores t = s.stores t) := by
  cases hs with
  | store hpc =>
    left
    refine ⟨hpc, goto_pc, ?_⟩
    have hpc' : (s.goto t .unlockStore).pc t = .unlockStore := goto_pc
    simp only [State.stores, hpc', hpc]
    rfl
  | unlockStore hpc =>
    right
    refine ⟨rfl, ?_⟩
    have hpc' : (s.goto t .forTest).pc t = .forTest := goto_pc
    simp only [State.stores, hpc', hpc, Function.update_self]
    rfl
  | _ =>
    right
    refine ⟨rfl, ?_⟩
    simp only [State.stores, State.goto, Function.update_self, *]
    rfl

/-! ## The mutex -/

/-- The mutex is held by the thread that is in a locked region. -/
def Held (s : State) : Prop := ∀ t, (s.pc t).locked = true ↔ s.owner = some t

/-- A step takes the free mutex, gives it back, or leaves it alone. -/
lemma Step.owner (hh : Held s) (hs : Step program N t s s') :
    (s'.owner = s.owner ∧ (s'.pc t).locked = (s.pc t).locked) ∨
    (s.owner = none ∧ s'.owner = some t ∧ (s'.pc t).locked = true) ∨
    (s.owner = some t ∧ s'.owner = none ∧ (s'.pc t).locked = false) := by
  have ht := hh t
  have hgoto : ∀ pc, (s.goto t pc).pc t = pc := fun _ => goto_pc
  cases hs with
  | lockLoad hpc hfree => exact Or.inr (Or.inl ⟨hfree, rfl, by simp only [hgoto]; rfl⟩)
  | lockStore hpc hfree => exact Or.inr (Or.inl ⟨hfree, rfl, by simp only [hgoto]; rfl⟩)
  | unlockLoad hpc =>
    rw [hpc] at ht
    exact Or.inr (Or.inr ⟨ht.mp rfl, rfl, by simp only [hgoto]; rfl⟩)
  | unlockStore hpc =>
    rw [hpc] at ht
    exact Or.inr (Or.inr ⟨ht.mp rfl, rfl, by simp only [hgoto]; rfl⟩)
  | forTest hpc => exact Or.inl ⟨rfl, by simp only [hgoto, hpc]; rfl⟩
  | loadWhole hpc => exact Or.inl ⟨rfl, by simp only [hgoto, hpc]; rfl⟩
  | loadSplit hpc => exact Or.inl ⟨rfl, by simp only [hgoto, hpc]; rfl⟩
  | add hpc => exact Or.inl ⟨rfl, by simp only [hgoto, hpc]; rfl⟩
  | store hpc => exact Or.inl ⟨rfl, by simp only [hgoto, hpc]; rfl⟩

lemma Step.held (hh : Held s) (hs : Step program N t s s') : Held s' := by
  intro u
  by_cases hut : u = t
  · subst hut
    rcases hs.owner hh with ⟨ho, hl⟩ | ⟨-, ho, hl⟩ | ⟨-, ho, hl⟩
    · rw [ho, hl]
      exact hh u
    · rw [ho, hl]
      exact iff_of_true rfl rfl
    · rw [ho, hl]
      exact iff_of_false Bool.false_ne_true (by simp)
  · rw [(hs.others hut).1, hh u]
    have hne : ¬ some t = some u := fun h => hut (Option.some.inj h).symm
    rcases hs.owner hh with ⟨ho, -⟩ | ⟨ho, ho', -⟩ | ⟨ho, ho', -⟩
    · rw [ho]
    · rw [ho, ho']
      exact iff_of_false (by simp) hne
    · rw [ho, ho']
      exact iff_of_false hne (by simp)

lemma held_init : Held State.init := fun t => iff_of_false Bool.false_ne_true (by simp [State.init])

/-- Two threads are not in locked regions at once. -/
lemma Held.unique (hh : Held s) (ht : (s.pc t).locked = true) (hu : (s.pc u).locked = true) :
    u = t := by
  rw [hh t] at ht
  rw [hh u, ht] at hu
  exact (Option.some.inj hu).symm

lemma Run.held (hh : Held s) (hr : Run program N s s') : Held s' :=
  inv_of_run (fun _ _ hh ⟨_, hs⟩ => hs.held hh) hh hr

/-! ## Every run comes to its end -/

/-- No thread starts a round too many. -/
def Bounded (N : ℕ) (s : State) : Prop := ∀ t, s.i t + (if s.pc t = .forTest then 0 else 1) ≤ N

lemma bounded_init : Bounded N State.init := fun _ => Nat.zero_le N

lemma Step.bounded (hb : Bounded N s) (hs : Step program N t s s') : Bounded N s' := by
  intro u
  have hu := hb u
  by_cases hut : u = t
  · subst hut
    have hgoto : ∀ pc, (s.goto u pc).pc u = pc := fun _ => goto_pc
    cases hs with
    | forTest hpc hi =>
      rw [hgoto]
      exact hi
    | unlockStore hpc =>
      rw [hpc] at hu
      simp only [hgoto, Function.update_self]
      exact hu
    | _ => simp_all [State.goto]
  · rw [(hs.others hut).1, (hs.others hut).2]
    exact hu

/-- The steps left to the end of the round. -/
def restOf : PC → ℕ
  | .forTest => 9
  | .lockLoad => 8
  | .load => 7
  | .unlockLoad _ => 6
  | .add _ => 5
  | .lockStore _ => 4
  | .store _ => 3
  | .unlockStore => 2

def State.rest (N : ℕ) (s : State) (t : Fin 2) : ℕ := 10 * (N - s.i t) + restOf (s.pc t)

lemma Step.rest_lt (hb : Bounded N s) (hs : Step program N t s s') :
    s'.rest N 0 + s'.rest N 1 < s.rest N 0 + s.rest N 1 := by
  have hother : s'.rest N (1 - t) = s.rest N (1 - t) := by
    obtain ⟨hpc, hi⟩ := hs.others (other_ne t)
    rw [State.rest, State.rest, hpc, hi]
  rw [sum_eq _ t, sum_eq (s.rest N) t, hother]
  apply Nat.add_lt_add_right
  have hgoto : ∀ pc, (s.goto t pc).pc t = pc := fun _ => goto_pc
  have hi : ∀ pc, (s.goto t pc).i t = s.i t := fun _ => rfl
  cases hs with
  | unlockStore hpc =>
    have ht := hb t
    rw [hpc, if_neg (by simp)] at ht
    simp only [State.rest, hgoto, hpc, Function.update_self, restOf]
    omega
  | forTest hpc => simp only [State.rest, hgoto, hi, hpc, restOf]; omega
  | lockLoad hpc => simp only [State.rest, hgoto, hi, hpc, restOf]; omega
  | loadWhole hpc => simp only [State.rest, hgoto, hi, hpc, restOf]; omega
  | loadSplit hpc => simp only [State.rest, hgoto, hi, hpc, restOf]; omega
  | unlockLoad hpc => simp only [State.rest, hgoto, hi, hpc, restOf]; omega
  | add hpc => simp only [State.rest, hgoto, hi, hpc, restOf]; omega
  | lockStore hpc => simp only [State.rest, hgoto, hi, hpc, restOf]; omega
  | store hpc => simp only [State.rest, hgoto, hi, hpc, restOf]; omega

/-- Where the owner of the mutex can go on, and everybody else when it is free. -/
lemma exists_step (hh : Held s) (hb : Bounded N s) (hf : ¬ Finished N s) (program : Program) :
    ∃ t s', Step program N t s s' := by
  cases ho : s.owner with
  | some t =>
    have hl := (hh t).mpr ho
    cases hpc : s.pc t with
    | load =>
      cases program with
      | whole => exact ⟨t, _, .loadWhole hpc rfl⟩
      | split => exact ⟨t, _, .loadSplit hpc rfl⟩
    | unlockLoad r => exact ⟨t, _, .unlockLoad hpc⟩
    | store r => exact ⟨t, _, .store hpc⟩
    | unlockStore => exact ⟨t, _, .unlockStore hpc⟩
    | forTest => rw [hpc] at hl; cases hl
    | lockLoad => rw [hpc] at hl; cases hl
    | add r => rw [hpc] at hl; cases hl
    | lockStore r => rw [hpc] at hl; cases hl
  | none =>
    obtain ⟨t, ht⟩ := not_forall.mp hf
    have hl : (s.pc t).locked ≠ true := fun h => by
      rw [hh t, ho] at h
      cases h
    have hle := hb t
    cases hpc : s.pc t with
    | forTest =>
      rw [hpc, if_pos rfl] at hle
      exact ⟨t, _, .forTest hpc (lt_of_le_of_ne hle fun h => ht ⟨hpc, h⟩)⟩
    | lockLoad => exact ⟨t, _, .lockLoad hpc ho⟩
    | add r => exact ⟨t, _, .add hpc⟩
    | lockStore r => exact ⟨t, _, .lockStore hpc ho⟩
    | load => rw [hpc] at hl; exact absurd rfl hl
    | unlockLoad r => rw [hpc] at hl; exact absurd rfl hl
    | store r => rw [hpc] at hl; exact absurd rfl hl
    | unlockStore => rw [hpc] at hl; exact absurd rfl hl

lemma Run.bounded (hb : Bounded N s) (hr : Run program N s s') : Bounded N s' :=
  inv_of_run (fun _ _ hb ⟨_, hs⟩ => hs.bounded hb) hb hr

/-- There is no infinite run. -/
lemma acc_of_bounded (hb : Bounded N s) : Acc (fun s' s => ∃ t, Step program N t s s') s := by
  refine acc_of_rank (fun s => s.rest N 0 + s.rest N 1) (fun s s' hb hs => ?_) hb
  obtain ⟨t, hs⟩ := hs
  exact ⟨hs.bounded hb, hs.rest_lt hb⟩

/-- A run that cannot go on has come to its end. -/
lemma Run.finished (hr : Run program N State.init s) (hstuck : ∀ t s', ¬ Step program N t s s') :
    Finished N s := by
  by_contra hf
  obtain ⟨t, s', hs⟩ := exists_step (hr.held held_init) (hr.bounded bounded_init) hf program
  exact hstuck t s' hs

lemma Finished.stores (hf : Finished N s) (t : Fin 2) : s.stores t = N := by
  rw [State.stores, (hf t).1, (hf t).2]
  rfl

/-! ## The mutex around the whole update -/

/-- A thread that is about to store has loaded the counter as it still is. -/
def PC.UpToDate (counter : ℕ) : PC → Prop
  | .store r => r = counter + 1
  | .unlockLoad _ => False
  | .add _ => False
  | .lockStore _ => False
  | _ => True

structure Exact (s : State) : Prop where
  held : Held s
  upToDate : ∀ t, (s.pc t).UpToDate s.counter
  counter : s.counter = s.stores 0 + s.stores 1

lemma exact_init : Exact State.init := ⟨held_init, fun _ => trivial, rfl⟩

lemma Step.upToDate (he : Exact s) (hs : Step .whole N t s s') (u : Fin 2) :
    (s'.pc u).UpToDate s'.counter := by
  have ht := he.upToDate t
  by_cases hut : u = t
  · subst hut
    have hgoto : ∀ pc, (s.goto u pc).pc u = pc := fun _ => goto_pc
    cases hs with
    | loadWhole => rw [hgoto]; rfl
    | loadSplit _ hprogram => cases hprogram
    | unlockLoad hpc => rw [hpc] at ht; exact ht.elim
    | add hpc => rw [hpc] at ht; exact ht.elim
    | lockStore hpc => rw [hpc] at ht; exact ht.elim
    | forTest => rw [hgoto]; trivial
    | lockLoad => simp only [hgoto]; trivial
    | store => simp only [hgoto]; trivial
    | unlockStore => simp only [hgoto]; trivial
  · have hu := he.upToDate u
    rw [(hs.others hut).1]
    rcases hs.effect with ⟨hpc, -, -⟩ | ⟨hc, -⟩
    · -- the other thread is not about to store as well
      cases hpcu : s.pc u with
      | store r =>
        refine absurd (he.held.unique (t := t) (u := u) ?_ ?_) hut
        · rw [hpc]
          rfl
        · rw [hpcu]
          rfl
      | unlockLoad r => rw [hpcu] at hu; exact hu
      | add r => rw [hpcu] at hu; exact hu
      | lockStore r => rw [hpcu] at hu; exact hu
      | _ => trivial
    · rw [hc]
      exact hu

lemma Step.exact (he : Exact s) (hs : Step .whole N t s s') : Exact s' := by
  refine ⟨hs.held he.held, hs.upToDate he, ?_⟩
  have hcount := he.counter
  rw [sum_eq _ t] at hcount ⊢
  rw [hs.stores_of_ne (other_ne t)]
  rcases hs.effect with ⟨hpc, -, hstores⟩ | ⟨hc, hstores⟩
  · have hpend := he.upToDate t
    rw [hpc] at hpend
    have hpend : s'.counter = s.counter + 1 := hpend
    omega
  · rw [hc, hstores, hcount]

lemma Run.exact (hr : Run .whole N State.init s) : Exact s :=
  inv_of_run (fun _ _ he ⟨_, hs⟩ => hs.exact he) exact_init hr

/-- With the mutex around the update one thread at a time is at the counter, no run goes on for
ever or gets stuck on the way, and all increments are there at the end. -/
theorem whole_counts (N : ℕ) :
    Acc (fun s' s => ∃ t, Step .whole N t s s') State.init ∧
    ∀ s, Run .whole N State.init s →
      (∀ t u, (s.pc t).locked = true → (s.pc u).locked = true → u = t) ∧
      ((∀ t s', ¬ Step .whole N t s s') → Finished N s ∧ s.counter = 2 * N) := by
  refine ⟨acc_of_bounded bounded_init, fun s hr => ⟨fun t u => hr.exact.held.unique, ?_⟩⟩
  intro hstuck
  have hf := hr.finished hstuck
  refine ⟨hf, ?_⟩
  rw [hr.exact.counter, hf.stores, hf.stores, two_mul]

end OsProjects.Mutex
