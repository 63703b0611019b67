import OsProjects.Threads.Peterson

/-!
# Peterson's lock on store buffers

Seen from memory a step is one of six moves, and the moves are those of the lock
without buffers.  A thread that is inside while the other one has given way owns
`turn`; so there is one thread inside at a time, and no increment is lost.
-/

namespace OsProjects.Peterson
open StoreBuffer Pair

variable {N v : ℕ} {s s' : State} {t u : Fin 2} {x : Loc} {pc : PC} {a : Option (Fin 2)}

@[simp] lemma goto_pc : (s.goto t pc).pc t = pc := Function.update_self _ _ _

@[simp] lemma goto_memory : (s.goto t pc).memory = s.memory := rfl

@[simp] lemma goto_i : (s.goto t pc).i = s.i := rfl

@[simp] lemma write_pc : (s.write t x v pc).pc t = pc := Function.update_self _ _ _

@[simp] lemma write_memory : (s.write t x v pc).memory = s.memory.write t x v := rfl

@[simp] lemma write_i : (s.write t x v pc).i = s.i := rfl

/-- A thread other than `t` does not notice the step. -/
structure Others (s s' : State) (t : Fin 2) : Prop where
  pc : ∀ u, u ≠ t → s'.pc u = s.pc u
  buffer : ∀ u, u ≠ t → s'.memory.buffer u = s.memory.buffer u
  i : ∀ u, u ≠ t → s'.i u = s.i u

lemma Others.trans {s₁ : State} (h : Others s s₁ t) (h' : Others s₁ s' t) : Others s s' t :=
  ⟨fun u hu => (h'.pc u hu).trans (h.pc u hu), fun u hu => (h'.buffer u hu).trans (h.buffer u hu),
    fun u hu => (h'.i u hu).trans (h.i u hu)⟩

lemma others_goto : Others s (s.goto t pc) t :=
  ⟨fun _ h => Function.update_of_ne h _ _, fun _ _ => rfl, fun _ _ => rfl⟩

lemma others_write : Others s (s.write t x v pc) t :=
  ⟨fun _ h => Function.update_of_ne h _ _, fun _ h => write_buffer_of_ne h, fun _ _ => rfl⟩

/-- The moves of thread `t` as memory shows them. -/
inductive Move (s s' : State) (t : Fin 2) : Option (Fin 2) → Prop
  | quiet (hm : s'.memory.mem = s.memory.mem) (hp : s'.phase t = s.phase t)
      (hv : s'.visible t = s.visible t) : Move s s' t none
  | enter (hm : s'.memory.mem = s.memory.mem) (hp : s.phase t = .turned)
      (hp' : s'.phase t = .inside) (hv : s'.visible t = s.visible t)
      (hguard : s.memory.mem (.flag (1 - t)) ≠ 1 ∨ s.memory.mem .turn ≠ (1 - t : Fin 2)) :
      Move s s' t (some t)
  | raise (hm : s'.memory.mem = Function.update s.memory.mem (.flag t) 1) (hp : s.phase t = .out)
      (hp' : s'.phase t = .flagged) (hv : s'.visible t = s.visible t) : Move s s' t none
  | giveWay (hm : s'.memory.mem = Function.update s.memory.mem .turn (1 - t : Fin 2))
      (hp : s.phase t = .flagged) (hp' : s'.phase t = .turned)
      (hv : s'.visible t = s.visible t) : Move s s' t none
  | count (hm : s'.memory.mem = Function.update s.memory.mem .count (s.memory.mem .count + 1))
      (hp : s.phase t = .inside) (hp' : s'.phase t = .inside)
      (hv : s'.visible t = s.visible t + 1) : Move s s' t none
  | leave (hm : s'.memory.mem = Function.update s.memory.mem (.flag t) 0) (hp : s.phase t = .inside)
      (hp' : s'.phase t = .out) (hv : s'.visible t = s.visible t) : Move s s' t none

lemma phase_eq {b : List (Loc × ℕ)} (hpc : s.pc t = pc) (hb : s.memory.buffer t = b) :
    s.phase t = phaseOf pc b.length := by
  rw [State.phase, hpc, hb]

lemma visible_eq {b : List (Loc × ℕ)} (hpc : s.pc t = pc) (hb : s.memory.buffer t = b) :
    s.visible t = visibleOf pc b.length (s.i t) := by
  rw [State.visible, hpc, hb]

lemma State.Shaped.of_pc (h : s.Shaped N t) (hpc : s.pc t = pc) :
    Shape N t (s.memory.mem .count) (s.i t) (s.memory.buffer t) pc := by
  rw [← hpc]
  exact h

/-- A store that reaches memory: which one it can be depends on the statement the thread is at. -/
lemma commit_move {b : List (Loc × ℕ)} (hsh : s.Shaped N t)
    (hb : s.memory.buffer t = (x, v) :: b) :
    ({ s with memory := s.memory.commit t x v b } : State).Shaped N t ∧
      Move s { s with memory := s.memory.commit t x v b } t none := by
  generalize hs' : ({ s with memory := s.memory.commit t x v b } : State) = s'
  have hpc' : s'.pc t = s.pc t := by rw [← hs']
  have hi' : s'.i t = s.i t := by rw [← hs']
  have hb' : s'.memory.buffer t = b := by rw [← hs']; exact commit_buffer_self
  have hm' : s'.memory.mem = Function.update s.memory.mem x v := by rw [← hs']; rfl
  unfold State.Shaped at hsh ⊢
  rw [hpc', hi', hb', hm']
  rw [hb] at hsh
  have hvis : s'.visible t = visibleOf (s.pc t) b.length (s.i t) := by
    rw [visible_eq hpc' hb', hi']
  cases hpc : s.pc t <;> simp only [hpc, Shape] at hsh <;> rw [hpc] at hpc' hvis
  case forTest =>
    obtain ⟨hi, h | h | ⟨h, h0⟩⟩ := hsh <;> cases h
    · exact ⟨⟨hi, Or.inl rfl⟩, .leave hm' (phase_eq hpc hb) (phase_eq hpc' hb')
        (hvis.trans (visible_eq hpc hb).symm)⟩
    · refine ⟨⟨hi, Or.inr (Or.inl rfl)⟩, .count hm' (phase_eq hpc hb) (phase_eq hpc' hb') ?_⟩
      rw [hvis, visible_eq hpc hb]
      exact (Nat.sub_add_cancel h0).symm
  case setTurn =>
    obtain ⟨hi, h | h | h | ⟨h, h0⟩⟩ := hsh <;> cases h
    · exact ⟨⟨hi, Or.inl rfl⟩, .raise hm' (phase_eq hpc hb) (phase_eq hpc' hb')
        (hvis.trans (visible_eq hpc hb).symm)⟩
    · exact ⟨⟨hi, Or.inr (Or.inl rfl)⟩, .leave hm' (phase_eq hpc hb) (phase_eq hpc' hb')
        (hvis.trans (visible_eq hpc hb).symm)⟩
    · refine ⟨⟨hi, Or.inr (Or.inr (Or.inl rfl))⟩,
        .count hm' (phase_eq hpc hb) (phase_eq hpc' hb') ?_⟩
      rw [hvis, visible_eq hpc hb]
      exact (Nat.sub_add_cancel h0).symm
  case fence =>
    obtain ⟨hi, h | h | h | h | ⟨h, h0⟩⟩ := hsh <;> cases h
    · exact ⟨⟨hi, Or.inl rfl⟩, .giveWay hm' (phase_eq hpc hb) (phase_eq hpc' hb')
        (hvis.trans (visible_eq hpc hb).symm)⟩
    · exact ⟨⟨hi, Or.inr (Or.inl rfl)⟩, .raise hm' (phase_eq hpc hb) (phase_eq hpc' hb')
        (hvis.trans (visible_eq hpc hb).symm)⟩
    · exact ⟨⟨hi, Or.inr (Or.inr (Or.inl rfl))⟩, .leave hm' (phase_eq hpc hb)
        (phase_eq hpc' hb') (hvis.trans (visible_eq hpc hb).symm)⟩
    · refine ⟨⟨hi, Or.inr (Or.inr (Or.inr (Or.inl rfl)))⟩,
        .count hm' (phase_eq hpc hb) (phase_eq hpc' hb') ?_⟩
      rw [hvis, visible_eq hpc hb]
      exact (Nat.sub_add_cancel h0).symm
  case clearFlag =>
    obtain ⟨hi, h | h⟩ := hsh <;> cases h
    refine ⟨⟨hi, Or.inl rfl⟩, .count hm' (phase_eq hpc hb) (phase_eq hpc' hb') ?_⟩
    rw [hvis, visible_eq hpc hb]
    rfl
  -- nothing is pending at the other statements
  case store => cases hsh.2.1
  all_goals cases hsh.2

/-- A statement that stores: the store goes to the back of the buffer. -/
lemma write_shaped {b : List (Loc × ℕ)} (hb : s.memory.buffer t = b)
    (h : Shape N t (s.memory.mem .count) (s.i t) (b ++ [(x, v)]) pc) :
    (s.write t x v pc).Shaped N t := by
  rw [State.Shaped, write_memory, write_mem, write_buffer_self, write_pc, write_i, hb]
  exact h

lemma write_quiet {b : List (Loc × ℕ)} (hb : s.memory.buffer t = b)
    (hp : s.phase t = phaseOf pc (b.length + 1))
    (hv : s.visible t = visibleOf pc (b.length + 1) (s.i t)) :
    Move s (s.write t x v pc) t none := by
  have hb' : (s.write t x v pc).memory.buffer t = b ++ [(x, v)] := by
    rw [write_memory, write_buffer_self, hb]
  refine .quiet rfl ?_ ?_
  · rw [phase_eq write_pc hb', List.length_append]
    exact hp.symm
  · rw [visible_eq write_pc hb', List.length_append]
    exact hv.symm

lemma goto_shaped {b : List (Loc × ℕ)} (hb : s.memory.buffer t = b)
    (h : Shape N t (s.memory.mem .count) (s.i t) b pc) : (s.goto t pc).Shaped N t := by
  rw [State.Shaped, goto_memory, goto_pc, goto_i, hb]
  exact h

lemma goto_quiet {b : List (Loc × ℕ)} (hb : s.memory.buffer t = b)
    (hp : s.phase t = phaseOf pc b.length) (hv : s.visible t = visibleOf pc b.length (s.i t)) :
    Move s (s.goto t pc) t none :=
  .quiet rfl ((phase_eq goto_pc hb).trans hp.symm) ((visible_eq goto_pc hb).trans hv.symm)

/-- What a step can do: it is a move of one thread. -/
theorem step_cases (hs : Step true N s a s') (hsh : ∀ t, s.Shaped N t) :
    ∃ t, Others s s' t ∧ s'.Shaped N t ∧ Move s s' t a := by
  cases hs with
  | @setFlag t hpc hi =>
    refine ⟨t, others_write, ?_⟩
    have h := (hsh t).of_pc hpc
    obtain ⟨-, h | h | ⟨h, h0⟩⟩ := h
    · exact ⟨write_shaped h ⟨hi, Or.inr (Or.inl rfl)⟩,
        write_quiet h (phase_eq hpc h) (visible_eq hpc h)⟩
    · exact ⟨write_shaped h ⟨hi, Or.inr (Or.inr (Or.inl rfl))⟩,
        write_quiet h (phase_eq hpc h) (visible_eq hpc h)⟩
    · exact ⟨write_shaped h ⟨hi, Or.inr (Or.inr (Or.inr ⟨rfl, h0⟩))⟩,
        write_quiet h (phase_eq hpc h) (visible_eq hpc h)⟩
  | @setTurn t hpc =>
    refine ⟨t, others_write, ?_⟩
    have h := (hsh t).of_pc hpc
    obtain ⟨hi, h | h | h | ⟨h, h0⟩⟩ := h
    · exact ⟨write_shaped h ⟨hi, Or.inr (Or.inl rfl)⟩,
        write_quiet h (phase_eq hpc h) (visible_eq hpc h)⟩
    · exact ⟨write_shaped h ⟨hi, Or.inr (Or.inr (Or.inl rfl))⟩,
        write_quiet h (phase_eq hpc h) (visible_eq hpc h)⟩
    · exact ⟨write_shaped h ⟨hi, Or.inr (Or.inr (Or.inr (Or.inl rfl)))⟩,
        write_quiet h (phase_eq hpc h) (visible_eq hpc h)⟩
    · exact ⟨write_shaped h ⟨hi, Or.inr (Or.inr (Or.inr (Or.inr ⟨rfl, h0⟩)))⟩,
        write_quiet h (phase_eq hpc h) (visible_eq hpc h)⟩
  | @fence t hpc hb =>
    refine ⟨t, others_goto, ?_⟩
    have h := (hsh t).of_pc hpc
    have hb := hb rfl
    exact ⟨goto_shaped hb ⟨h.1, rfl⟩,
      goto_quiet hb ((phase_eq hpc hb).trans rfl) ((visible_eq hpc hb).trans rfl)⟩
  | @flagClear t hpc hf =>
    refine ⟨t, others_goto, ?_⟩
    have h := (hsh t).of_pc hpc
    rw [read_of_empty h.2] at hf
    exact ⟨goto_shaped h.2 ⟨h.1, rfl⟩, .enter rfl (phase_eq hpc h.2) (phase_eq goto_pc h.2)
      ((visible_eq goto_pc h.2).trans (visible_eq hpc h.2).symm) (Or.inl hf)⟩
  | @flagSet t hpc hf =>
    refine ⟨t, others_goto, ?_⟩
    have h := (hsh t).of_pc hpc
    exact ⟨goto_shaped h.2 ⟨h.1, rfl⟩,
      goto_quiet h.2 ((phase_eq hpc h.2).trans rfl) ((visible_eq hpc h.2).trans rfl)⟩
  | @turnOther t hpc ht =>
    refine ⟨t, others_goto, ?_⟩
    have h := (hsh t).of_pc hpc
    exact ⟨goto_shaped h.2 ⟨h.1, rfl⟩,
      goto_quiet h.2 ((phase_eq hpc h.2).trans rfl) ((visible_eq hpc h.2).trans rfl)⟩
  | @turnSelf t hpc ht =>
    refine ⟨t, others_goto, ?_⟩
    have h := (hsh t).of_pc hpc
    rw [read_of_empty h.2] at ht
    exact ⟨goto_shaped h.2 ⟨h.1, rfl⟩, .enter rfl (phase_eq hpc h.2) (phase_eq goto_pc h.2)
      ((visible_eq goto_pc h.2).trans (visible_eq hpc h.2).symm) (Or.inr ht)⟩
  | @load t hpc =>
    refine ⟨t, others_goto, ?_⟩
    have h := (hsh t).of_pc hpc
    exact ⟨goto_shaped h.2 ⟨h.1, rfl, read_of_empty h.2⟩,
      goto_quiet h.2 ((phase_eq hpc h.2).trans rfl) ((visible_eq hpc h.2).trans rfl)⟩
  | @store t r hpc =>
    refine ⟨t, others_write, ?_⟩
    have h := (hsh t).of_pc hpc
    obtain ⟨hi, hb, rfl⟩ := h
    exact ⟨write_shaped hb ⟨hi, Or.inr rfl⟩, write_quiet hb (phase_eq hpc hb) (visible_eq hpc hb)⟩
  | @clearFlag t hpc =>
    generalize hs' : ({ s.write t (.flag t) 0 .forTest with
      i := Function.update s.i t (s.i t + 1) } : State) = s'
    have hpc' : s'.pc t = .forTest := by rw [← hs']; exact Function.update_self _ _ _
    have hi' : s'.i t = s.i t + 1 := by rw [← hs']; exact Function.update_self _ _ _
    have hb' : s'.memory.buffer t = s.memory.buffer t ++ [(.flag t, 0)] := by
      rw [← hs']
      exact write_buffer_self
    have hm' : s'.memory.mem = s.memory.mem := by rw [← hs']; rfl
    have hothers : Others s s' t := by
      rw [← hs']
      have hw : Others s (s.write t (.flag t) 0 .forTest) t := others_write
      exact ⟨hw.pc, hw.buffer, fun _ h => Function.update_of_ne h _ _⟩
    refine ⟨t, hothers, ?_⟩
    rw [State.Shaped, hpc', hi', hb', hm']
    obtain ⟨hi, h | h⟩ := (hsh t).of_pc hpc <;> rw [h] at hb' ⊢
    · refine ⟨⟨hi, Or.inr (Or.inl rfl)⟩, .quiet hm' ?_ ?_⟩
      · rw [phase_eq hpc' hb', phase_eq hpc h]
        rfl
      · rw [visible_eq hpc' hb', visible_eq hpc h, hi']
        rfl
    · refine ⟨⟨hi, Or.inr (Or.inr ⟨rfl, Nat.succ_pos _⟩)⟩, .quiet hm' ?_ ?_⟩
      · rw [phase_eq hpc' hb', phase_eq hpc h]
        rfl
      · rw [visible_eq hpc' hb', visible_eq hpc h, hi']
        rfl
  | @commit t x v b hb =>
    obtain ⟨hshape, hmove⟩ := commit_move (hsh t) hb
    exact ⟨t, ⟨fun _ _ => rfl, fun _ h => commit_buffer_of_ne h, fun _ _ => rfl⟩, hshape, hmove⟩

/-! ## The invariant -/

/-- The invariant of the lock, on what memory shows.  `owner`: of a thread inside and another
one that has given way, the first owns `turn`. -/
structure Inv (N : ℕ) (s : State) : Prop where
  shaped : ∀ t, s.Shaped N t
  flag : ∀ t, s.memory.mem (.flag t) = if s.phase t = .out then 0 else 1
  turn : ∃ u : Fin 2, s.memory.mem .turn = u
  owner : ∀ t, s.phase t = .inside → s.phase (1 - t) = .turned ∨ s.phase (1 - t) = .inside →
    s.memory.mem .turn = t
  count : s.memory.mem .count = s.visible 0 + s.visible 1

lemma inv_init : Inv N State.init := by
  refine ⟨fun t => ⟨Nat.zero_le N, Or.inl rfl⟩, fun _ => rfl, ⟨0, rfl⟩, fun t h => ?_, rfl⟩
  cases h

/-- Both would own `turn`. -/
lemma Inv.exclusive (hi : Inv N s) (h : s.phase t = .inside) : s.phase (1 - t) ≠ .inside := by
  intro h'
  have h1 := hi.owner t h (Or.inr h')
  have h2 := hi.owner (1 - t) h' (Or.inr (by rw [other_other]; exact h))
  exact other_ne t (Fin.ext (h2.symm.trans h1))

lemma Others.phase (ho : Others s s' t) (hu : u ≠ t) : s'.phase u = s.phase u := by
  rw [State.phase, State.phase, ho.pc u hu, ho.buffer u hu]

lemma Others.visible (ho : Others s s' t) (hu : u ≠ t) : s'.visible u = s.visible u := by
  rw [State.visible, State.visible, ho.pc u hu, ho.buffer u hu, ho.i u hu]

/-- Only a thread inside has read the counter. -/
lemma Shape.congr_count {m m' i : ℕ} {b : List (Loc × ℕ)} (h : Shape N t m i b pc)
    (hp : phaseOf pc b.length ≠ .inside) : Shape N t m' i b pc := by
  cases pc with
  | forTest =>
    obtain ⟨hi, h | h | ⟨h, h0⟩⟩ := h
    · exact ⟨hi, Or.inl h⟩
    · exact ⟨hi, Or.inr (Or.inl h)⟩
    · rw [h] at hp
      exact absurd rfl hp
  | setTurn =>
    obtain ⟨hi, h | h | h | ⟨h, h0⟩⟩ := h
    · exact ⟨hi, Or.inl h⟩
    · exact ⟨hi, Or.inr (Or.inl h)⟩
    · exact ⟨hi, Or.inr (Or.inr (Or.inl h))⟩
    · rw [h] at hp
      exact absurd rfl hp
  | fence =>
    obtain ⟨hi, h | h | h | h | ⟨h, h0⟩⟩ := h
    · exact ⟨hi, Or.inl h⟩
    · exact ⟨hi, Or.inr (Or.inl h)⟩
    · exact ⟨hi, Or.inr (Or.inr (Or.inl h))⟩
    · exact ⟨hi, Or.inr (Or.inr (Or.inr (Or.inl h)))⟩
    · rw [h] at hp
      exact absurd rfl hp
  | readFlag => exact h
  | readTurn => exact h
  | load => exact h
  | store r => exact absurd rfl hp
  | clearFlag => exact absurd rfl hp

lemma Move.shaped_other (hi : Inv N s) (ho : Others s s' t) (hm : Move s s' t a) (hu : u ≠ t) :
    s'.Shaped N u := by
  have hsh := hi.shaped u
  have hkeep : s'.memory.mem .count = s.memory.mem .count ∨ s.phase t = .inside := by
    cases hm with
    | quiet hm => exact Or.inl (by rw [hm])
    | enter hm => exact Or.inl (by rw [hm])
    | raise hm => exact Or.inl (by rw [hm]; rfl)
    | giveWay hm => exact Or.inl (by rw [hm]; rfl)
    | count hm hp => exact Or.inr hp
    | leave hm hp => exact Or.inr hp
  rw [State.Shaped] at hsh ⊢
  rw [ho.pc u hu, ho.buffer u hu, ho.i u hu]
  rcases hkeep with h | h
  · rw [h]
    exact hsh
  · obtain rfl := (eq_or_other t u).resolve_left hu
    exact hsh.congr_count (hi.exclusive h)

lemma Move.turn_eq (hi : Inv N s) (hm : Move s s' t a) : ∃ u : Fin 2, s'.memory.mem .turn = u := by
  cases hm with
  | giveWay hm =>
    refine ⟨1 - t, ?_⟩
    rw [hm, Function.update_self]
  | quiet hm => rw [hm]; exact hi.turn
  | enter hm => rw [hm]; exact hi.turn
  | raise hm => rw [hm]; exact hi.turn
  | count hm => rw [hm]; exact hi.turn
  | leave hm => rw [hm]; exact hi.turn

lemma Move.flag_eq (hi : Inv N s) (ho : Others s s' t) (hm : Move s s' t a) (u : Fin 2) :
    s'.memory.mem (.flag u) = if s'.phase u = .out then 0 else 1 := by
  have hflag := hi.flag u
  rcases eq_or_other t u with rfl | rfl
  · cases hm with
    | quiet hm hp => rw [hm, hp, hflag]
    | enter hm hp hp' => rw [hm, hflag, hp, hp']; rfl
    | raise hm hp hp' => rw [hm, hp', Function.update_self]; rfl
    | giveWay hm hp hp' => rw [hm, hp', Function.update_of_ne (by simp), hflag, hp]; rfl
    | count hm hp hp' => rw [hm, hp', Function.update_of_ne (by simp), hflag, hp]
    | leave hm hp hp' => rw [hm, hp', Function.update_self]; rfl
  · have hne : Loc.flag (1 - t) ≠ Loc.flag t := fun h => other_ne t (Loc.flag.inj h)
    rw [ho.phase (other_ne t), ← hflag]
    cases hm with
    | quiet hm => rw [hm]
    | enter hm => rw [hm]
    | raise hm => rw [hm, Function.update_of_ne hne]
    | giveWay hm => rw [hm, Function.update_of_ne (by simp)]
    | count hm => rw [hm, Function.update_of_ne (by simp)]
    | leave hm => rw [hm, Function.update_of_ne hne]

lemma Move.owner_eq (hi : Inv N s) (ho : Others s s' t) (hm : Move s s' t a) (u : Fin 2)
    (hin : s'.phase u = .inside)
    (hother : s'.phase (1 - u) = .turned ∨ s'.phase (1 - u) = .inside) :
    s'.memory.mem .turn = u := by
  have howner := hi.owner u
  rcases eq_or_other t u with rfl | rfl
  · rw [ho.phase (other_ne u)] at hother
    cases hm with
    | quiet hm hp => rw [hm]; exact howner (hp ▸ hin) hother
    | enter hm hp hp' hv hguard =>
      -- the other thread is not out, so it was `turn` that let this one in
      have hflag : s.memory.mem (.flag (1 - u)) = 1 := by
        rw [hi.flag]
        rcases hother with h | h <;> rw [h] <;> rfl
      obtain ⟨w, hw⟩ := hi.turn
      have hne := hguard.resolve_left (not_not_intro hflag)
      rw [hm, hw]
      rcases eq_or_other u w with rfl | rfl
      · rfl
      · exact absurd hw hne
    | raise hm hp hp' => rw [hp'] at hin; cases hin
    | giveWay hm hp hp' => rw [hp'] at hin; cases hin
    | count hm hp => rw [hm]; exact howner hp hother
    | leave hm hp hp' => rw [hp'] at hin; cases hin
  · rw [ho.phase (other_ne t)] at hin
    rw [other_other] at hother howner
    cases hm with
    | quiet hm hp => rw [hm]; exact howner hin (hp ▸ hother)
    | enter hm hp => rw [hm]; exact howner hin (Or.inl hp)
    | raise hm hp hp' => rw [hp'] at hother; rcases hother with h | h <;> cases h
    | giveWay hm => rw [hm, Function.update_self]
    | count hm hp => rw [hm]; exact howner hin (Or.inr hp)
    | leave hm hp hp' => rw [hp'] at hother; rcases hother with h | h <;> cases h

lemma Move.count_eq (hi : Inv N s) (ho : Others s s' t) (hm : Move s s' t a) :
    s'.memory.mem .count = s'.visible 0 + s'.visible 1 := by
  have hcount := hi.count
  rw [sum_eq _ t] at hcount ⊢
  rw [ho.visible (other_ne t)]
  cases hm with
  | quiet hm hp hv => rw [hm, hv, hcount]
  | enter hm hp hp' hv => rw [hm, hv, hcount]
  | raise hm hp hp' hv => rw [hm, hv, ← hcount]; rfl
  | giveWay hm hp hp' hv => rw [hm, hv, ← hcount]; rfl
  | count hm hp hp' hv => rw [hm, hv, Function.update_self, hcount]; omega
  | leave hm hp hp' hv => rw [hm, hv, ← hcount]; rfl

theorem Move.inv (hi : Inv N s) (ho : Others s s' t) (hsh : s'.Shaped N t) (hm : Move s s' t a) :
    Inv N s' := by
  refine ⟨fun u => ?_, hm.flag_eq hi ho, hm.turn_eq hi, hm.owner_eq hi ho, hm.count_eq hi ho⟩
  by_cases hu : u = t
  · rw [hu]
    exact hsh
  · exact hm.shaped_other hi ho hu

lemma Step.inv (hi : Inv N s) (hs : Step true N s a s') : Inv N s' := by
  obtain ⟨t, ho, hsh, hm⟩ := step_cases hs hi.shaped
  exact hm.inv hi ho hsh

theorem Run.inv {es : List (Fin 2)} (hi : Inv N s) (hr : Run true N s es s') : Inv N s' := by
  induction hr with
  | refl => exact hi
  | step h _ ih => exact ih (h.inv hi)

lemma critical_inside (h : (s.pc t).critical = true) : s.phase t = .inside := by
  unfold State.phase
  cases hpc : s.pc t <;> rw [hpc] at h <;> first | rfl | cases h

/-! ## Without the barrier -/

/-- A thread alone: when its stores stay in the buffer, it enters and memory does not show it. -/
lemma enter_unseen (hpc : s.pc t = .forTest) (hi : s.i t < N) (hb : s.memory.buffer t = [])
    (hm : s.memory.mem (.flag (1 - t)) = 0) :
    ∃ s', Run false N s [t] s' ∧ s'.pc t = .load ∧ Others s s' t ∧
      s'.memory.mem = s.memory.mem := by
  have hne : Loc.flag (1 - t) ≠ Loc.flag t := fun h => other_ne t (Loc.flag.inj h)
  let s₁ := s.write t (.flag t) 1 .setTurn
  let s₂ := s₁.write t .turn (1 - t : Fin 2) .fence
  let s₃ := s₂.goto t .readFlag
  let s₄ := s₃.goto t .load
  have hbuffer : s₃.memory.buffer t = [(.flag t, 1), (.turn, ((1 - t : Fin 2) : ℕ))] := by
    change s₂.memory.buffer t = _
    rw [write_memory, write_buffer_self, write_memory, write_buffer_self, hb]
    rfl
  have hread : s₃.memory.read t (.flag (1 - t)) ≠ 1 := by
    rw [read_of_notMem]
    · change s.memory.mem (.flag (1 - t)) ≠ 1
      rw [hm]
      exact zero_ne_one
    · rw [hbuffer]
      intro w hw
      rcases List.mem_cons.mp hw with rfl | hw
      · exact hne.symm
      · obtain rfl := List.mem_singleton.mp hw
        simp
  have h₁ : Step false N s none s₁ := .setFlag hpc hi
  have h₂ : Step false N s₁ none s₂ := .setTurn write_pc
  have h₃ : Step false N s₂ none s₃ := .fence write_pc fun h => Bool.noConfusion h
  have h₄ : Step false N s₃ (some t) s₄ := .flagClear goto_pc hread
  have ho₁ : Others s s₁ t := others_write
  have ho₂ : Others s₁ s₂ t := others_write
  have ho₃ : Others s₂ s₃ t := others_goto
  have ho₄ : Others s₃ s₄ t := others_goto
  exact ⟨s₄, .step h₁ (.step h₂ (.step h₃ (.step h₄ (.refl s₄)))), goto_pc,
    ((ho₁.trans ho₂).trans ho₃).trans ho₄, rfl⟩

lemma Run.append {barrier : Bool} {es es' : List (Fin 2)} {s₁ : State}
    (h : Run barrier N s es s₁) (h' : Run barrier N s₁ es' s') :
    Run barrier N s (es ++ es') s' := by
  induction h with
  | refl => exact h'
  | step hs _ ih =>
    rw [List.append_assoc]
    exact .step hs (ih h')

lemma stuck_of_no_round {barrier : Bool} {es : List (Fin 2)} (hr : Run barrier 0 State.init es s) :
    s = State.init := by
  cases hr with
  | refl => rfl
  | step h =>
    exfalso
    cases h with
    | setFlag _ hi => exact absurd hi (Nat.not_lt_zero _)
    | setTurn hpc => cases hpc
    | fence hpc => cases hpc
    | flagClear hpc => cases hpc
    | flagSet hpc => cases hpc
    | turnOther hpc => cases hpc
    | turnSelf hpc => cases hpc
    | load hpc => cases hpc
    | store hpc => cases hpc
    | clearFlag hpc => cases hpc
    | commit hb => cases hb

/-- The lock keeps the threads apart, and it is the `mfence` that makes it. -/
theorem mutual_exclusion_iff (barrier : Bool) (N : ℕ) :
    (∀ es s, Run barrier N State.init es s →
      ¬ ((s.pc 0).critical = true ∧ (s.pc 1).critical = true)) ↔ barrier = true ∨ N = 0 := by
  constructor
  · intro h
    by_contra hno
    obtain ⟨hb, hN⟩ := not_or.mp hno
    rw [Bool.not_eq_true] at hb
    subst hb
    have hi : 0 < N := Nat.pos_of_ne_zero hN
    obtain ⟨s₁, hr₁, hpc₁, ho₁, hm₁⟩ := enter_unseen (t := 0) (s := State.init) rfl hi rfl rfl
    have hone : (1 : Fin 2) ≠ 0 := by decide
    obtain ⟨s₂, hr₂, hpc₂, ho₂, -⟩ := enter_unseen (t := 1) (s := s₁) (N := N)
      (ho₁.pc 1 hone) (by rw [ho₁.i 1 hone]; exact hi) (ho₁.buffer 1 hone) (by rw [hm₁]; rfl)
    refine h _ s₂ (hr₁.append hr₂) ⟨?_, ?_⟩
    · rw [ho₂.pc 0 hone.symm, hpc₁]
      rfl
    · rw [hpc₂]
      rfl
  · rintro (rfl | rfl) es s hr ⟨h0, h1⟩
    · exact (hr.inv inv_init).exclusive (critical_inside h0) (critical_inside h1)
    · rw [stuck_of_no_round hr] at h0
      cases h0

end OsProjects.Peterson
