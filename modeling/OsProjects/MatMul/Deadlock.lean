import OsProjects.MatMul.Recovery

/-!
# Rows that do not fit into a pipe

The parent reads a row only after its child has ended, and the child ends only
after it has written the row.  Both wait for ever when the pipe has no room for a
whole row.
-/

namespace OsProjects.MatMul

/-- The parent waits for a child that waits for room in its pipe. -/
structure Deadlocked (x : Input) (capacity : ℕ) (s : State) : Prop where
  parent : s.parent = .loop
  left : s.procLeft ≠ 0
  child : ∃ c j, s.children[s.pid s.j]? = some c ∧ c.waited = false ∧ c.pc = .write j ∧ j < x.p ∧
    capacity < 4 * (s.pipes c.row).length + 4

variable {x : Input} {crashRate : ℤ} {capacity : ℕ} {junk s : State} {es : List Event}

/-- Neither of the two can move. -/
lemma Deadlocked.stuck (h : Deadlocked x capacity s) (e : Event) (s' : State) :
    ¬ ParentStep x s e s' ∧ ¬ ChildStep x crashRate capacity (s.pid s.j) s e s' := by
  obtain ⟨c, j, hc, hw, hpc, hj, hfull⟩ := h.child
  have hparent := h.parent
  constructor
  · intro hs
    cases hs with
    | finish _ hleft => exact h.left hleft
    | waitpid _ _ hc' _ hend =>
      obtain rfl := Option.some.inj (hc.symm.trans hc')
      rw [hpc] at hend
      cases hend
    | waitpidFails _ _ hall =>
      rw [hall c hc] at hw
      cases hw
    | _ hpc' =>
      rw [hparent] at hpc'
      cases hpc'
  · intro hs
    cases hs with
    | write hc' hpc' _ hroom =>
      obtain rfl := Option.some.inj (hc.symm.trans hc')
      omega
    | exit hc' hpc' =>
      obtain rfl := Option.some.inj (hc.symm.trans hc')
      rw [hpc] at hpc'
      obtain rfl := ChildPC.write.inj hpc'
      exact absurd hj (lt_irrefl _)
    | _ hc' hpc' =>
      obtain rfl := Option.some.inj (hc.symm.trans hc')
      rw [hpc] at hpc'
      cases hpc'

/-- A row that fits into a pipe never fills it before it is written. -/
lemma not_deadlocked (hfit : x.m = 0 ∨ 4 * x.p ≤ capacity)
    (hrun : Exec x crashRate capacity junk es s) : ¬ Deadlocked x capacity s := by
  intro h
  obtain ⟨failed, hand, todo, started, hp, hj, hn⟩ := hrun.inv
  obtain ⟨c, j, hc, hw, hpc, hjp, hfull⟩ := h.child
  rcases hfit with hm | hfit
  · -- without rows there are no jobs
    obtain ⟨b, hb, -⟩ := hj.owned _ c hc hw
    have hlt := (jobs_iff.mp hj).row_lt hb
    have hle := hp.started_le
    omega
  · obtain ⟨-, hpipe⟩ := hj.written _ c hc hw
    rw [hpc] at hpipe
    rw [hpipe, List.length_take, serialRow_length] at hfull
    simp only [ChildPC.written] at hfull
    omega

/-! ## A run that gets stuck -/

/-- All children up to `i` have been forked, and none of them has run. -/
structure Forking (x : Input) (s : State) (i : ℕ) : Prop where
  parent : s.parent = .fork i
  left : s.procLeft = x.m
  length : s.children.length = i
  first : 0 < i → s.pid 0 = 0 ∧ s.children[0]? = some ⟨0, .simulateCrash, false⟩ ∧ s.pipes 0 = []

lemma exists_forking (x : Input) (crashRate : ℤ) (capacity : ℕ) (junk : State) {i : ℕ}
    (hi : i ≤ x.m) : ∃ es s, Exec x crashRate capacity junk es s ∧ Forking x s i := by
  induction i with
  | zero => exact ⟨[], _, .start, rfl, rfl, rfl, fun h => absurd h (lt_irrefl _)⟩
  | succ i ih =>
    obtain ⟨es, s, hrun, hf⟩ := ih (by omega)
    refine ⟨_, _, hrun.step (.parent (.fork hf.parent hi)), rfl, hf.left, ?_, fun _ => ?_⟩
    · change (s.children ++ _).length = i + 1
      rw [List.length_append, List.length_singleton, hf.length]
    · change Function.update s.pid i _ 0 = 0 ∧ (s.children ++ _)[0]? = _ ∧
        Function.update s.pipes i [] 0 = []
      cases i with
      | zero =>
        have hnil : s.children = [] := List.eq_nil_of_length_eq_zero hf.length
        rw [hnil, Function.update_self, Function.update_self]
        exact ⟨rfl, rfl, rfl⟩
      | succ i =>
        obtain ⟨hpid, hchild, hpipe⟩ := hf.first (Nat.succ_pos i)
        rw [Function.update_of_ne (Nat.succ_ne_zero i).symm,
          Function.update_of_ne (Nat.succ_ne_zero i).symm,
          List.getElem?_append_left (by rw [hf.length]; omega)]
        exact ⟨hpid, hchild, hpipe⟩

/-- The parent waits for the first child, which has written `k` elements. -/
structure Writing (x : Input) (s : State) (k : ℕ) : Prop where
  parent : s.parent = .loop
  left : s.procLeft = x.m
  current : s.pid s.j = 0
  child : s.children[0]? = some ⟨0, .write k, false⟩
  pipe : (s.pipes 0).length = k

lemma exists_writing (x : Input) (crashRate : ℤ) (junk : State) (hm : 0 < x.m) {k : ℕ}
    (hk : k ≤ x.p) (hroom : 4 * k ≤ capacity) :
    ∃ es s, Exec x crashRate capacity junk es s ∧ Writing x s k := by
  induction k with
  | zero =>
    obtain ⟨es, s, hrun, hf⟩ := exists_forking x crashRate capacity junk le_rfl
    obtain ⟨hpid, hchild, hpipe⟩ := hf.first hm
    have hloop := hrun.step (.parent (.forked hf.parent))
    refine ⟨_, _, hloop.step (.child 0 (.survive hchild rfl)), rfl, hf.left, hpid, ?_, ?_⟩
    · exact List.getElem?_set_self (List.getElem?_eq_some_iff.mp hchild).1
    · exact congrArg List.length hpipe
  | succ k ih =>
    obtain ⟨es, s, hrun, hw⟩ := ih (by omega) (by omega)
    have hwrite : ChildStep x crashRate capacity 0 s .silent _ :=
      .write hw.child rfl hk (by simp only [hw.pipe]; omega)
    refine ⟨_, _, hrun.step (.child 0 hwrite), hw.parent, hw.left, hw.current, ?_, ?_⟩
    · exact List.getElem?_set_self (List.getElem?_eq_some_iff.mp hw.child).1
    · show (Function.update s.pipes 0 (s.pipes 0 ++ _) 0).length = k + 1
      rw [Function.update_self, List.length_append, List.length_singleton, hw.pipe]

/-- The first child fills its pipe, and the parent waits for it. -/
lemma exists_deadlocked (x : Input) (crashRate : ℤ) (junk : State) (hm : 0 < x.m)
    (hlong : capacity < 4 * x.p) :
    ∃ es s, Exec x crashRate capacity junk es s ∧ Deadlocked x capacity s := by
  have hk : capacity / 4 < x.p := by omega
  obtain ⟨es, s, hrun, hw⟩ := exists_writing x crashRate junk hm hk.le
    (show 4 * (capacity / 4) ≤ capacity by omega)
  refine ⟨es, s, hrun, hw.parent, ?_, ⟨0, .write (capacity / 4), false⟩, _, ?_, rfl, rfl, hk, ?_⟩
  · rw [hw.left]
    omega
  · rw [hw.current]
    exact hw.child
  · rw [hw.pipe]
    omega

/-- What a pipe holds, in bytes. -/
def pipeCapacity : ℕ := 65536

/-- Parent and child never wait for each other if and only if a row fits into a pipe. -/
theorem no_deadlock_iff (x : Input) (crashRate : ℤ) (junk : State) :
    (∀ es s, Exec x crashRate pipeCapacity junk es s → ¬ Deadlocked x pipeCapacity s) ↔
      x.m = 0 ∨ 4 * x.p ≤ pipeCapacity := by
  constructor
  · intro h
    by_contra hno
    obtain ⟨hm, hp⟩ := not_or.mp hno
    obtain ⟨es, s, hrun, hdead⟩ :=
      exists_deadlocked x crashRate junk (Nat.pos_of_ne_zero hm) (Nat.lt_of_not_le hp)
    exact h es s hrun hdead
  · exact fun hfit es s hrun => not_deadlocked hfit hrun

/-- One row of 16385 elements. -/
theorem deadlock_longRow :
    ¬ ∀ (x : Input) (crashRate : ℤ) (junk : State) (es : List Event) (s : State),
      Exec x crashRate pipeCapacity junk es s → ¬ Deadlocked x pipeCapacity s := by
  intro h
  obtain ⟨es, s, hrun, hdead⟩ := exists_deadlocked
    ⟨1, 1, 16385, fun _ _ => 1, fun _ _ => 1⟩ 0 default Nat.zero_lt_one
    (show pipeCapacity < 4 * 16385 by decide)
  exact h _ _ _ es s hrun hdead

end OsProjects.MatMul
