import OsProjects.MatMul.Rows

/-!
# Children that are killed

`simulate_crash` aborts a child before its first write, but the parent starts a
new child for every one that did not exit by itself.  A child that is killed
between two writes leaves a part of its row in the pipe, in front of what the
next child writes, and the parent reads that part first.
-/

namespace OsProjects.MatMul

/-- The events of a run in which a child may be killed whenever `allowed` says so. -/
inductive KilledExec (x : Input) (crashRate : ℤ) (capacity : ℕ) (junk : State)
    (allowed : State → Child → Prop) : List Event → State → Prop
  | start : KilledExec x crashRate capacity junk allowed [] (start x junk)
  | step {es : List Event} {e : Event} {s s' : State}
      (hrun : KilledExec x crashRate capacity junk allowed es s)
      (hstep : Step x crashRate capacity s e s') :
      KilledExec x crashRate capacity junk allowed (es ++ [e]) s'
  | kill {es : List Event} {s : State} {q : ℕ} {c : Child}
      (hrun : KilledExec x crashRate capacity junk allowed es s) (hc : s.children[q]? = some c)
      (hpc : ∀ status, c.pc ≠ .ended status) (hallowed : allowed s c) :
      KilledExec x crashRate capacity junk allowed (es ++ [.crash q])
        (s.goto q c (.ended .signaled))

/-- The child has written nothing yet, or a whole row is in its pipe. -/
def Harmless (x : Input) (s : State) (c : Child) : Prop :=
  c.pc.written x.p = 0 ∨ x.p ≤ (s.pipes c.row).length

/-- A pipe with what its child has written, or with a whole row in front. -/
def Behind (x : Input) (row k : ℕ) (pipe : List Int32) : Prop :=
  pipe = (serialRow x row).take k ∨ serialRow x row <+: pipe

section Killed

variable {x : Input} {read : List ℕ} {s : State} {hand : Option Job} {jobs : List Job}
  {started q : ℕ} {c : Child} {crashRate : ℤ} {capacity : ℕ} {junk : State} {es : List Event}

lemma behind_kept (x : Input) : Kept x (Behind x) where
  empty row := by
    apply Or.inl
    rw [List.take_zero]
  write row k pipe hk h := by
    rcases h with h | h
    · apply Or.inl
      rw [serialRow_take_succ x row hk, ← h]
    · exact Or.inr (h.trans (List.prefix_append _ _))
  full row pipe h := by
    have hlen := serialRow_length x row
    rcases h with h | h
    · rw [h, List.take_take, min_self]
      exact List.take_of_length_le hlen.le
    · rw [List.prefix_iff_eq_take, hlen] at h
      exact h.symm

/-- A harmless kill leaves an empty pipe, or one with a whole row in front. -/
lemma Rows.kill (hn : WaitedEnded s) (hc : s.children[q]? = some c)
    (hpc : ∀ status, c.pc ≠ .ended status) (hharmless : Harmless x s c)
    (hj : Rows x (Behind x) read s hand jobs started) :
    Rows x (Behind x) read (s.goto q c (.ended .signaled)) hand jobs started ∧
      WaitedEnded (s.goto q c (.ended .signaled)) := by
  have hw := hn.running hc hpc
  obtain ⟨hle, hpipe⟩ := hj.written q c hc hw
  have hbehind : Behind x c.row 0 (s.pipes c.row) := by
    rcases hpipe with hpipe | hpipe
    · rcases hharmless with h0 | hfull
      · rw [h0] at hpipe
        exact Or.inl hpipe
      · -- the child had written everything
        rw [hpipe, List.length_take, serialRow_length] at hfull
        rw [hpipe, List.take_of_length_le (by rw [serialRow_length]; omega)]
        exact Or.inr List.prefix_rfl
    · exact Or.inr hpipe
  have hj' := hj.goto hc hw (.ended .signaled) (Nat.zero_le _) hbehind
  rw [Function.update_eq_self] at hj'
  exact ⟨hj', hn.goto hw _ _⟩

lemma reads_concat (es : List Event) (e : Event) : reads (es ++ [e]) = reads es ++ reads [e] :=
  List.filterMap_append

/-- What holds after every run whose kills are harmless. -/
lemma KilledExec.rows (hrun : KilledExec x crashRate capacity junk (Harmless x) es s) :
    ∃ failed hand todo started, Phase x s failed hand todo started ∧
      Rows x (Behind x) (reads es) s hand (failed ++ todo) started ∧ WaitedEnded s := by
  induction hrun with
  | start =>
    exact ⟨[], none, [], 0, .fork rfl (Nat.zero_le _) ⟨le_rfl, nofun, nofun⟩ rfl rfl rfl rfl,
      ⟨List.Perm.nil, nofun, nofun, nofun, nofun, nofun⟩, nofun⟩
  | step _ hstep ih =>
    obtain ⟨failed, hand, todo, started, hp, hj, hn⟩ := ih
    rw [reads_concat]
    cases hstep with
    | parent hs =>
      obtain ⟨failed', hand', todo', started', hp', hm⟩ := hs.move hp hj
      exact ⟨failed', hand', todo', started', hp', hj.move (behind_kept x) hm, hn.move hm⟩
    | child q hs =>
      obtain ⟨hj', hn'⟩ := hj.childStep (behind_kept x) hn hs
      rw [hs.reads_eq_nil, List.append_nil]
      exact ⟨failed, hand, todo, started, hp.childStep hs, hj', hn'⟩
  | @kill es s q c _ hc hpc hharmless ih =>
    obtain ⟨failed, hand, todo, started, hp, hj, hn⟩ := ih
    obtain ⟨hj', hn'⟩ := hj.kill hn hc hpc hharmless
    rw [reads_concat, show reads [Event.crash q] = [] from rfl, List.append_nil]
    exact ⟨failed, hand, todo, started, hp.frame _ _, hj', hn'⟩

/-- While every child that is killed has written nothing or has a whole row in its pipe, every
row that is read is right, and at the end of the loop all of them are. -/
theorem killed_rows (x : Input) (crashRate : ℤ) (capacity : ℕ) (junk : State) (es : List Event)
    (s : State) (hrun : KilledExec x crashRate capacity junk (Harmless x) es s) :
    (∀ row ∈ reads es, ∀ k < x.p, s.cParallel row k = serialMatMult x row k) ∧
      (s.parent = .done → ∀ row < x.m, ∀ k < x.p,
        s.cParallel row k = serialMatMult x row k) := by
  obtain ⟨failed, hand, todo, started, hp, hj, hn⟩ := hrun.rows
  have hread : ∀ row ∈ reads es, ∀ k < x.p, s.cParallel row k = serialMatMult x row k := by
    intro row hrow k hk
    have hlt : row < started := by
      rw [← List.mem_range, ← hj.rows.mem_iff]
      exact List.mem_append_left _ hrow
    rw [hj.stored row hrow k hk, serialMatMult, if_pos ⟨hlt.trans_le hp.started_le, hk⟩]
  refine ⟨hread, fun hdone row hrow => hread row ?_⟩
  cases hp with
  | done _ =>
    have hrows := hj.rows
    rw [List.append_nil, Option.toList_none, List.append_nil, List.map_nil,
      List.append_nil] at hrows
    exact hrows.mem_iff.mpr (List.mem_range.mpr hrow)
  | _ hpc =>
    rw [hdone] at hpc
    cases hpc

end Killed

/-- One row, the multiples of 2 from 6 on. -/
def oneRow (p : ℕ) : Input where
  m := 1
  n := 1
  p := p
  A := fun _ _ => 2
  B := fun _ j => Int32.ofNat (j + 3)

/-- The first child is killed after it has written the only element. -/
theorem killed_rows_oneRow :
    ∃ es s, KilledExec (oneRow 1) 0 65536 default (Harmless (oneRow 1)) es s ∧ .crash 0 ∈ es ∧
      s.cParallel 0 0 = serialMatMult (oneRow 1) 0 0 := by
  have h₁ := KilledExec.step (KilledExec.start : KilledExec (oneRow 1) 0 65536 default
    (Harmless (oneRow 1)) _ _) (.parent (.fork rfl Nat.zero_lt_one))
  have h₂ := h₁.step (.parent (.forked rfl))
  have h₃ := h₂.step (.child 0 (.survive rfl rfl))
  have h₄ := h₃.step (.child 0 (.write rfl rfl Nat.zero_lt_one (by decide)))
  have h₅ := h₄.kill (q := 0) rfl nofun (Or.inr (by decide))
  have h₆ := h₅.step (.parent (.waitpid rfl (by decide) rfl rfl rfl))
  have h₇ := h₆.step (.parent (.refork rfl rfl))
  have h₈ := h₇.step (.child 1 (.survive rfl rfl))
  have h₉ := h₈.step (.child 1 (.write rfl rfl Nat.zero_lt_one (by decide)))
  have h₁₀ := h₉.step (.child 1 (.exit rfl rfl))
  have h₁₁ := h₁₀.step (.parent (.waitpid rfl (by decide) rfl rfl rfl))
  have h₁₂ := h₁₁.step (.parent (.read rfl rfl (Or.inl (by decide))))
  exact ⟨_, _, h₁₂, by decide, (killed_rows _ _ _ _ _ _ h₁₂).1 0 (by decide) 0 Nat.zero_lt_one⟩

/-- The first child is killed between its two writes: the parent stores 6, 6 for 6, 8. -/
theorem killed_rows_fail :
    ¬ ∀ (x : Input) (crashRate : ℤ) (capacity : ℕ) (junk : State) (es : List Event) (s : State),
      KilledExec x crashRate capacity junk (fun _ _ => True) es s →
        ∀ row ∈ reads es, ∀ k < x.p, s.cParallel row k = serialMatMult x row k := by
  intro h
  have h₁ := KilledExec.step (KilledExec.start : KilledExec (oneRow 2) 0 65536 default
    (fun _ _ => True) _ _) (.parent (.fork rfl Nat.zero_lt_one))
  have h₂ := h₁.step (.parent (.forked rfl))
  have h₃ := h₂.step (.child 0 (.survive rfl rfl))
  have h₄ := h₃.step (.child 0 (.write rfl rfl Nat.two_pos (by decide)))
  have h₅ := h₄.kill (q := 0) rfl nofun trivial
  have h₆ := h₅.step (.parent (.waitpid rfl (by decide) rfl rfl rfl))
  have h₇ := h₆.step (.parent (.refork rfl rfl))
  have h₈ := h₇.step (.child 1 (.survive rfl rfl))
  have h₉ := h₈.step (.child 1 (.write rfl rfl Nat.two_pos (by decide)))
  have h₁₀ := h₉.step (.child 1 (.write rfl rfl Nat.one_lt_two (by decide)))
  have h₁₁ := h₁₀.step (.child 1 (.exit rfl rfl))
  have h₁₂ := h₁₁.step (.parent (.waitpid rfl (by decide) rfl rfl rfl))
  have h₁₃ := h₁₂.step (.parent (.read rfl rfl (Or.inl (by decide))))
  have hwrong := h _ _ _ _ _ _ h₁₃ 0 (by decide) 1 Nat.one_lt_two
  revert hwrong
  decide

end OsProjects.MatMul
