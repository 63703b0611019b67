import OsProjects.Library.Ranked
import OsProjects.Threads.Exclusion

/-!
# What Peterson's lock promises a thread

A waiting thread is overtaken once at most.  Whatever has happened so far, both
threads can still finish, and then `main` prints the number of all rounds.
-/

namespace OsProjects.Peterson
open StoreBuffer Pair

variable {N : ℕ} {s s' : State} {t : Fin 2} {a : Option (Fin 2)} {es : List (Fin 2)}

/-! ## Overtaking -/

/-- As long as the other thread cannot enter before `t` does, it gives way again. -/
lemma Step.blocked (hi : Inv N s) (ht : s.phase t = .turned)
    (hblock : s.phase (1 - t) = .turned → s.memory.mem .turn = t) (hs : Step true N s a s')
    (ha : a ≠ some t) :
    a = none ∧ s'.phase t = .turned ∧ (s'.phase (1 - t) = .turned → s'.memory.mem .turn = t) := by
  obtain ⟨u, ho, -, hm⟩ := step_cases hs hi.shaped
  rcases eq_or_other t u with rfl | rfl
  · have hother : s'.phase (1 - u) = s.phase (1 - u) := ho.phase (other_ne u)
    rw [hother]
    cases hm with
    | quiet hm hp => exact ⟨rfl, hp.trans ht, by rw [hm]; exact hblock⟩
    | enter => exact absurd rfl ha
    | raise hm hp => rw [ht] at hp; cases hp
    | giveWay hm hp => rw [ht] at hp; cases hp
    | count hm hp => rw [ht] at hp; cases hp
    | leave hm hp => rw [ht] at hp; cases hp
  · have hsame : s'.phase t = .turned := (ho.phase (other_ne t).symm).trans ht
    cases hm with
    | quiet hm hp => exact ⟨rfl, hsame, by rw [hm, hp]; exact hblock⟩
    | enter hm hp hp' hv hguard =>
      -- the flag of `t` is up and `turn` is its own
      exfalso
      rw [other_other, hi.flag, ht] at hguard
      rcases hguard with h | h
      · exact h rfl
      · exact h (hblock hp)
    | raise hm hp hp' => exact ⟨rfl, hsame, fun h => by rw [hp'] at h; cases h⟩
    | giveWay hm =>
      refine ⟨rfl, hsame, fun _ => ?_⟩
      rw [hm, Function.update_self, other_other]
    | count hm hp hp' => exact ⟨rfl, hsame, fun h => by rw [hp'] at h; cases h⟩
    | leave hm hp hp' => exact ⟨rfl, hsame, fun h => by rw [hp'] at h; cases h⟩

lemma Run.blocked (hi : Inv N s) (ht : s.phase t = .turned)
    (hblock : s.phase (1 - t) = .turned → s.memory.mem .turn = t) (hr : Run true N s es s')
    (hes : t ∉ es) : es = [] := by
  induction hr with
  | refl => rfl
  | @step s s₁ s₂ a es h _ ih =>
    have ha : a ≠ some t := by
      rintro rfl
      exact hes List.mem_cons_self
    obtain ⟨rfl, ht', hblock'⟩ := h.blocked hi ht hblock ha
    exact ih (h.inv hi) ht' hblock' hes

/-- A thread that waits stays so until it enters. -/
lemma Step.waiting (hi : Inv N s) (ht : s.phase t = .turned) (hs : Step true N s a s')
    (ha : a ≠ some t) : s'.phase t = .turned ∧ (a = none ∨ s'.phase (1 - t) = .inside) := by
  obtain ⟨u, ho, -, hm⟩ := step_cases hs hi.shaped
  rcases eq_or_other t u with rfl | rfl
  · cases hm with
    | quiet hm hp => exact ⟨hp.trans ht, Or.inl rfl⟩
    | enter => exact absurd rfl ha
    | raise hm hp => rw [ht] at hp; cases hp
    | giveWay hm hp => rw [ht] at hp; cases hp
    | count hm hp => rw [ht] at hp; cases hp
    | leave hm hp => rw [ht] at hp; cases hp
  · have hsame : s'.phase t = .turned := (ho.phase (other_ne t).symm).trans ht
    cases hm with
    | enter hm hp hp' => exact ⟨hsame, Or.inr hp'⟩
    | quiet => exact ⟨hsame, Or.inl rfl⟩
    | raise => exact ⟨hsame, Or.inl rfl⟩
    | giveWay => exact ⟨hsame, Or.inl rfl⟩
    | count => exact ⟨hsame, Or.inl rfl⟩
    | leave => exact ⟨hsame, Or.inl rfl⟩

lemma Run.overtaken (hi : Inv N s) (ht : s.phase t = .turned) (hr : Run true N s es s')
    (hes : t ∉ es) : es.length ≤ 1 := by
  induction hr with
  | refl => exact Nat.zero_le 1
  | @step s s₁ s₂ a es h hr ih =>
    cases a with
    | none => exact ih (h.inv hi) (h.waiting hi ht (by simp)).1 hes
    | some u =>
      have hu : u ≠ t := fun hut => hes (by rw [hut]; exact List.mem_cons_self)
      obtain ⟨ht', hin⟩ := h.waiting hi ht fun hut => hu (Option.some.inj hut)
      have hin := hin.resolve_left (by simp)
      obtain rfl := hr.blocked (h.inv hi) ht' (fun h => by rw [hin] at h; cases h)
        fun hmem => hes (List.mem_cons_of_mem u hmem)
      exact le_rfl

/-- A thread in the lock's loop sees the other one enter once at most before it enters itself. -/
theorem overtaken_once (N : ℕ) (es₀ es : List (Fin 2)) (s s' : State) (t : Fin 2)
    (hr₀ : Run true N State.init es₀ s) (hw : s.pc t = .readFlag ∨ s.pc t = .readTurn)
    (hr : Run true N s es s') (hes : t ∉ es) : es.length ≤ 1 := by
  refine hr.overtaken (hr₀.inv inv_init) ?_ hes
  rcases hw with h | h <;> rw [State.phase, h] <;> rfl

/-- Thread 1 gives way first, then thread 0, and thread 1 enters. -/
theorem overtaken_once_entered : ([1] : List (Fin 2)).length ≤ 1 :=
  overtaken_once 1 [] [1] _ _ 0
    (.step (@Step.setFlag true 1 State.init 1 rfl (by decide)) (.step (@Step.setTurn true 1 _ 1 rfl)
      (.step (@Step.commit true 1 _ 1 _ _ _ rfl) (.step (@Step.commit true 1 _ 1 _ _ _ rfl)
        (.step (@Step.fence true 1 _ 1 rfl fun _ => rfl)
          (.step (@Step.setFlag true 1 _ 0 rfl (by decide)) (.step (@Step.setTurn true 1 _ 0 rfl)
            (.step (@Step.commit true 1 _ 0 _ _ _ rfl) (.step (@Step.commit true 1 _ 0 _ _ _ rfl)
              (.step (@Step.fence true 1 _ 0 rfl fun _ => rfl) (.refl _)))))))))))
    (Or.inl rfl)
    (.step (@Step.flagSet true 1 _ 1 rfl rfl)
      (.step (@Step.turnSelf true 1 _ 1 rfl (by decide)) (.refl _)))
    (by decide)

/-! ## Finishing -/

/-- Both threads have left their `for` loop, and `pthread_join` shows `main` their stores. -/
def Finished (N : ℕ) (s : State) : Prop :=
  ∀ t, s.pc t = .forTest ∧ s.i t = N ∧ s.memory.buffer t = []

lemma Inv.finished (hi : Inv N s) (hf : Finished N s) : s.memory.mem .count = 2 * N := by
  have hvisible : ∀ t, s.visible t = N := by
    intro t
    obtain ⟨hpc, hN, hb⟩ := hf t
    rw [visible_eq hpc hb, hN]
    rfl
  rw [hi.count, hvisible, hvisible, two_mul]

/-- What is left of a round, where a store counts twice: in the thread and in its buffer. -/
def restOf : PC → ℕ
  | .forTest => 20
  | .setTurn => 17
  | .fence => 15
  | .readFlag => 14
  | .readTurn => 13
  | .load => 12
  | .store _ => 11
  | .clearFlag => 9

def State.rest (N : ℕ) (s : State) (t : Fin 2) : ℕ :=
  20 * (N - s.i t) + restOf (s.pc t) + (s.memory.buffer t).length

def State.rank (N : ℕ) (s : State) : ℕ := s.rest N 0 + s.rest N 1

lemma Others.rank_lt (ho : Others s s' t) (h : s'.rest N t < s.rest N t) :
    s'.rank N < s.rank N := by
  have hother : s'.rest N (1 - t) = s.rest N (1 - t) := by
    rw [State.rest, State.rest, ho.pc _ (other_ne t), ho.buffer _ (other_ne t), ho.i _ (other_ne t)]
  rw [State.rank, State.rank, sum_eq _ t, sum_eq (s.rest N) t, hother]
  exact Nat.add_lt_add_right h _

lemma rest_goto {pc : PC} (h : restOf pc < restOf (s.pc t)) :
    (s.goto t pc).rank N < s.rank N := by
  apply others_goto.rank_lt
  rw [State.rest, State.rest, goto_pc, goto_memory, goto_i]
  omega

lemma rest_write {x : Loc} {v : ℕ} {pc : PC} (h : restOf pc + 1 < restOf (s.pc t)) :
    (s.write t x v pc).rank N < s.rank N := by
  apply others_write.rank_lt
  rw [State.rest, State.rest, write_pc, write_memory, write_buffer_self, write_i,
    List.length_append, List.length_singleton]
  omega

/-- A thread that neither waits for the other one nor is done has a step that brings it nearer
to its end. -/
lemma exists_step (hi : Inv N s) (hb : s.memory.buffer t = []) (hpc : s.pc t ≠ .readTurn)
    (hend : s.pc t = .forTest → s.i t ≠ N) :
    ∃ a s', Step true N s a s' ∧ s'.rank N < s.rank N := by
  cases h : s.pc t with
  | forTest =>
    have hle : s.i t ≤ N := ((hi.shaped t).of_pc h).1
    exact ⟨_, _, .setFlag h (lt_of_le_of_ne hle (hend h)), rest_write (by rw [h]; decide)⟩
  | setTurn => exact ⟨_, _, .setTurn h, rest_write (by rw [h]; decide)⟩
  | fence => exact ⟨_, _, .fence h fun _ => hb, rest_goto (by rw [h]; decide)⟩
  | readFlag =>
    by_cases hf : s.memory.read t (.flag (1 - t)) = 1
    · exact ⟨_, _, .flagSet h hf, rest_goto (by rw [h]; decide)⟩
    · exact ⟨_, _, .flagClear h hf, rest_goto (by rw [h]; decide)⟩
  | readTurn => exact absurd h hpc
  | load => exact ⟨_, _, .load h, rest_goto (by rw [h]; exact Nat.lt_succ_self 11)⟩
  | store r => exact ⟨_, _, .store h, rest_write (by rw [h]; exact Nat.lt_succ_self 10)⟩
  | clearFlag =>
    refine ⟨_, _, .clearFlag h, ?_⟩
    have hlt : s.i t < N := ((hi.shaped t).of_pc h).1
    have hw : Others s (s.write t (.flag t) 0 .forTest) t := others_write
    have ho : Others s { s.write t (.flag t) 0 .forTest with
        i := Function.update s.i t (s.i t + 1) } t :=
      ⟨hw.pc, hw.buffer, fun _ hu => Function.update_of_ne hu _ _⟩
    apply ho.rank_lt
    have hpc' : (s.write t (.flag t) 0 .forTest).pc t = .forTest := write_pc
    simp only [State.rest, hpc', h, write_memory, write_buffer_self, Function.update_self, restOf,
      List.length_append, List.length_singleton]
    omega

/-- Of two threads of which one waits and the other waits or is done, one enters. -/
lemma exists_entry (hi : Inv N s) (hb : ∀ u, s.memory.buffer u = []) (ht : s.pc t = .readTurn)
    (hother : s.pc (1 - t) = .readTurn ∨ s.pc (1 - t) = .forTest) :
    ∃ es s', Run true N s es s' ∧ s'.rank N < s.rank N := by
  obtain ⟨u, hu⟩ := hi.turn
  have hread : ∀ w, s.memory.read w .turn = u := fun w => (read_of_empty (hb w)).trans hu
  -- the owner of `turn` enters
  have henter : s.pc u = .readTurn → ∃ es s', Run true N s es s' ∧ s'.rank N < s.rank N := by
    intro hpc
    have hne : (u : ℕ) ≠ (1 - u : Fin 2) := fun h => other_ne u (Fin.ext h).symm
    exact ⟨_, _, .step (.turnSelf hpc (by rw [hread]; exact hne)) (.refl _),
      rest_goto (by rw [hpc]; decide)⟩
  rcases eq_or_other t u with rfl | rfl
  · exact henter ht
  · rcases hother with hw | hd
    · exact henter hw
    · -- the other thread is done, so its flag is down
      have hflag : (s.goto t .readFlag).memory.read t (.flag (1 - t)) ≠ 1 := by
        rw [goto_memory, read_of_empty (hb t), hi.flag, phase_eq hd (hb (1 - t))]
        exact zero_ne_one
      have h₁ : Step true N s none (s.goto t .readFlag) := .turnOther ht (hread t)
      have h₂ : Step true N (s.goto t .readFlag) (some t) ((s.goto t .readFlag).goto t .load) :=
        .flagClear goto_pc hflag
      refine ⟨_, _, .step h₁ (.step h₂ (.refl _)), ?_⟩
      apply (others_goto.trans others_goto).rank_lt
      simp only [State.rest, goto_pc, goto_memory, goto_i, ht, restOf]
      omega

/-- As long as the threads are not done, some of them can come nearer to the end. -/
lemma exists_run (hi : Inv N s) (hf : ¬ Finished N s) :
    ∃ es s', Run true N s es s' ∧ s'.rank N < s.rank N := by
  by_cases hbuf : ∃ t, s.memory.buffer t ≠ []
  · obtain ⟨t, hb⟩ := hbuf
    obtain ⟨⟨x, v⟩, b, hb⟩ := List.exists_cons_of_ne_nil hb
    refine ⟨_, _, .step (.commit hb) (.refl _), ?_⟩
    have ho : Others s { s with memory := s.memory.commit t x v b } t :=
      ⟨fun _ _ => rfl, fun _ hu => commit_buffer_of_ne hu, fun _ _ => rfl⟩
    apply ho.rank_lt
    simp only [State.rest, commit_buffer_self, hb, List.length_cons]
    omega
  · have hb : ∀ t, s.memory.buffer t = [] := fun t => by_contra fun h => hbuf ⟨t, h⟩
    by_cases hone : ∃ t, s.pc t ≠ .readTurn ∧ (s.pc t = .forTest → s.i t ≠ N)
    · obtain ⟨t, hpc, hend⟩ := hone
      obtain ⟨a, s', hs, hlt⟩ := exists_step hi (hb t) hpc hend
      exact ⟨_, s', .step hs (.refl s'), hlt⟩
    · have hall : ∀ t, s.pc t = .readTurn ∨ s.pc t = .forTest ∧ s.i t = N := by
        intro t
        by_contra hno
        obtain ⟨h1, h2⟩ := not_or.mp hno
        exact hone ⟨t, h1, fun h3 h4 => h2 ⟨h3, h4⟩⟩
      obtain ⟨t, ht⟩ : ∃ t, s.pc t = .readTurn := by
        by_contra hno
        apply hf
        intro t
        obtain ⟨h1, h2⟩ := (hall t).resolve_left fun h => hno ⟨t, h⟩
        exact ⟨h1, h2, hb t⟩
      exact exists_entry hi hb ht ((hall (1 - t)).imp_right And.left)

lemma Inv.can_finish (hi : Inv N s) : ∃ es s', Run true N s es s' ∧ Finished N s' := by
  have hprogress : ∀ s, Inv N s → ¬ Finished N s →
      ∃ s', (∃ es, Run true N s es s') ∧ Inv N s' ∧ s'.rank N < s.rank N := by
    intro s hi hf
    obtain ⟨es, s', hr, hlt⟩ := exists_run hi hf
    exact ⟨s', ⟨es, hr⟩, hr.inv hi, hlt⟩
  obtain ⟨s', hruns, hf⟩ := Ranked.exists_done (State.rank N) hprogress hi
  suffices hrun : ∃ es, Run true N s es s' by
    obtain ⟨es, hr⟩ := hrun
    exact ⟨es, s', hr, hf⟩
  clear hf
  induction hruns with
  | refl => exact ⟨[], .refl s⟩
  | tail _ hr ih =>
    obtain ⟨es, hes⟩ := ih
    obtain ⟨es', hes'⟩ := hr
    exact ⟨es ++ es', hes.append hes'⟩

/-- No increment is lost, and no schedule leads the threads into a dead end. -/
theorem prints_all_rounds (N : ℕ) (es : List (Fin 2)) (s : State)
    (hr : Run true N State.init es s) :
    (Finished N s → s.memory.mem .count = 2 * N) ∧
      ∃ es' s', Run true N s es' s' ∧ Finished N s' ∧ s'.memory.mem .count = 2 * N := by
  have hi := hr.inv inv_init
  obtain ⟨es', s', hr', hf⟩ := hi.can_finish
  exact ⟨hi.finished, es', s', hr', hf, (hr'.inv hi).finished hf⟩

theorem prints_all_rounds_init :
    ∃ es s, Run true 10000 State.init es s ∧ Finished 10000 s ∧ s.memory.mem .count = 2 * 10000 :=
  (prints_all_rounds 10000 [] State.init (.refl State.init)).2

end OsProjects.Peterson
