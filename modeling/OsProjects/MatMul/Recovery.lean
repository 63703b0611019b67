import OsProjects.MatMul.Rows
import OsProjects.Library.Tally

/-!
# Crash recovery loses and repeats nothing

A child that crashes before its first write leaves its pipe as it was, so the
pipe of a running child holds what that child has written.  `Jobs` says this of
the jobs of the parent, `Counts` how the steps taken add up, and `Inv` is both.
-/

namespace OsProjects.MatMul
open Tally

/-- The job in the parent's hand, and the ones to wait for. -/
structure Jobs (x : Input) (read : List ℕ) (s : State) (hand : Option Job) (jobs : List Job)
    (started : ℕ) : Prop where
  rows : (read ++ (hand.toList ++ jobs).map Job.row).Perm (List.range started)
  live : ∀ b ∈ jobs, ∃ c, s.children[b.pid]? = some c ∧ c.row = b.row ∧ c.waited = false
  owned : ∀ (q : ℕ) (c : Child), s.children[q]? = some c → c.waited = false →
    ∃ b ∈ jobs, b.pid = q
  written : ∀ (q : ℕ) (c : Child), s.children[q]? = some c → c.waited = false →
    c.pc.written x.p ≤ x.p ∧ s.pipes c.row = (serialRow x c.row).take (c.pc.written x.p)
  inHand : ∀ b ∈ hand,
    s.pipes b.row = (serialRow x b.row).take ((ChildPC.ended s.statusId).written x.p)
  stored : ∀ row ∈ read, ∀ k < x.p,
    s.cParallel row k = linearMult (x.A row) (x.bTran k) x.n

def ChildPC.crashed : ChildPC → Bool
  | .ended .signaled => true
  | _ => false

/-- The steps that a child, and the parent on its behalf, have taken. -/
def Child.steps (p : ℕ) (c : Child) : ℕ :=
  (match c.pc with
    | .simulateCrash => 0
    | .write j => j + 1
    | .ended .exited => p + 2
    | .ended .signaled => 1) + if c.waited then 2 else 0

/-- What a run has done so far. -/
structure Log where
  forks : List ℕ
  waits : List ℕ
  reads : List ℕ
  crashes : List ℕ
  length : ℕ

def log (es : List Event) : Log :=
  ⟨forks es, waits es, reads es, crashes es, es.length⟩

def Log.record (l : Log) (e : Event) : Log :=
  let l := { l with length := l.length + 1 }
  match e with
  | .fork q _ => { l with forks := l.forks ++ [q] }
  | .waitpid q => { l with waits := l.waits ++ [q] }
  | .read row => { l with reads := l.reads ++ [row] }
  | .crash q => { l with crashes := l.crashes ++ [q] }
  | .silent => l

lemma log_concat (es : List Event) (e : Event) : log (es ++ [e]) = (log es).record e := by
  cases e <;> simp [log, Log.record, forks, waits, reads, crashes]

structure Counts (x : Input) (l : Log) (s : State) (hand : Option Job) (started : ℕ) :
    Prop where
  forks : l.forks = List.range s.children.length
  waits : ∀ q ∈ l.waits, ∃ c, s.children[q]? = some c ∧ c.waited = true
  ended : ∀ c ∈ s.children, c.waited = true → ∃ status, c.pc = .ended status
  waited : l.waits.length = (s.children.map fun c => c.waited.toNat).sum
  crashed : l.crashes.length = (s.children.map fun c => c.pc.crashed.toNat).sum
  born : s.children.length + (if hand.isSome ∧ s.statusId = .signaled then 1 else 0) =
    started + (s.children.map fun c => (c.waited && c.pc.crashed).toNat).sum
  steps : l.length = (s.children.map (Child.steps x.p)).sum + s.parent.steps x.m

def Inv (x : Input) (l : Log) (s : State) : Prop :=
  ∃ failed hand todo started, Phase x s failed hand todo started ∧
    Jobs x l.reads s hand (failed ++ todo) started ∧ Counts x l s hand started

/-- A pipe that nobody has left anything in. -/
def Exact (x : Input) (row k : ℕ) (pipe : List Int32) : Prop := pipe = (serialRow x row).take k

lemma exact_kept (x : Input) : Kept x (Exact x) where
  empty row := by rw [Exact, List.take_zero]
  write row k pipe hk h := by rw [Exact, serialRow_take_succ x row hk, ← h]
  full row pipe h := by
    rw [h, List.take_take, min_self]
    exact List.take_of_length_le (serialRow_length x row).le

lemma jobs_iff {x : Input} {read : List ℕ} {s : State} {hand : Option Job} {jobs : List Job}
    {started : ℕ} : Jobs x read s hand jobs started ↔ Rows x (Exact x) read s hand jobs started :=
  ⟨fun h => ⟨h.1, h.2, h.3, h.4, h.5, h.6⟩, fun h => ⟨h.1, h.2, h.3, h.4, h.5, h.6⟩⟩

/-! ## Steps of a child -/

section Child

variable {x : Input} {s s' : State} {hand : Option Job} {started : ℕ} {crashRate : ℤ}
  {capacity q : ℕ} {c : Child} {e : Event} {l : Log}

lemma Counts.goto (hn : Counts x l s hand started) (hc : s.children[q]? = some c)
    (hw : c.waited = false) (pc : ChildPC) (pipes : ℕ → List Int32) {crashes : List ℕ}
    (hcrash : crashes.length + c.pc.crashed.toNat = l.crashes.length + pc.crashed.toNat)
    (hsteps : Child.steps x.p { c with pc := pc } = c.steps x.p + 1) :
    Counts x { l with crashes := crashes, length := l.length + 1 }
      { s.goto q c pc with pipes := pipes } hand started := by
  have hcrashed : (((s.children.set q { c with pc := pc }).map fun c => c.pc.crashed.toNat).sum +
      c.pc.crashed.toNat = _ + pc.crashed.toNat) :=
    sum_map_set (fun c => c.pc.crashed.toNat) hc { c with pc := pc }
  have hall := sum_map_set (Child.steps x.p) hc { c with pc := pc }
  constructor
  · simp only [State.goto, List.length_set]
    exact hn.forks
  · intro q' hq'
    obtain ⟨c', hc', hw'⟩ := hn.waits q' hq'
    refine ⟨c', ?_, hw'⟩
    -- the child that moves has not been waited for
    have hne : q ≠ q' := by
      rintro rfl
      rw [Option.some.inj (hc.symm.trans hc'), hw'] at hw
      cases hw
    exact (List.getElem?_set_ne hne).trans hc'
  · intro c' hc' hw'
    rcases List.mem_or_eq_of_mem_set hc' with hc' | rfl
    · exact hn.ended c' hc' hw'
    · rw [hw] at hw'
      cases hw'
  · simp only [State.goto]
    rw [sum_map_set_eq hc]
    · exact hn.waited
    · rfl
  · have := hn.crashed
    simp only [State.goto]
    omega
  · simp only [State.goto, List.length_set]
    rw [sum_map_set_eq hc (by simp only [hw, Bool.false_and])]
    exact hn.born
  · have := hn.steps
    simp only [State.goto]
    omega

lemma Counts.childStep (hn : Counts x l s hand started)
    (hs : ChildStep x crashRate capacity q s e s') : Counts x (l.record e) s' hand started := by
  have hended : WaitedEnded s := hn.ended
  cases hs with
  | @crash c hc hpc hcrash =>
    have hw := hended.running hc (by rw [hpc]; exact nofun)
    exact hn.goto hc hw _ _ (by simp [hpc, ChildPC.crashed]) (by simp [Child.steps, hpc, hw])
  | @survive c hc hpc =>
    have hw := hended.running hc (by rw [hpc]; exact nofun)
    exact hn.goto hc hw _ _ (by simp [hpc, ChildPC.crashed]) (by simp [Child.steps, hpc, hw])
  | @write c j hc hpc hlt hroom =>
    have hw := hended.running hc (by rw [hpc]; exact nofun)
    exact hn.goto hc hw _ _ (by simp [hpc, ChildPC.crashed]) (by simp [Child.steps, hpc, hw])
  | @exit c hc hpc =>
    have hw := hended.running hc (by rw [hpc]; exact nofun)
    exact hn.goto hc hw _ _ (by simp [hpc, ChildPC.crashed]) (by simp [Child.steps, hpc, hw])

end Child

/-! ## Steps of the parent -/

section Parent

variable {x : Input} {read : List ℕ} {s s' : State} {jobs : List Job} {hand : Option Job} {b : Job}
  {started started' row : ℕ} {l : Log} {e : Event}

lemma Counts.spawn (hn : Counts x l s hand started)
    (hchildren :
      s'.children = s.children ++ [{ row := row, pc := .simulateCrash, waited := false }])
    (hparent : s'.parent.steps x.m = s.parent.steps x.m + 1)
    (hborn : s.children.length + 1 =
      started' + (s.children.map fun c => (c.waited && c.pc.crashed).toNat).sum) :
    Counts x { l with forks := l.forks ++ [s.children.length], length := l.length + 1 } s' none
      started' := by
  constructor
  · rw [hchildren, List.length_append, List.length_singleton, List.range_succ, hn.forks]
  · intro q hq
    obtain ⟨c, hc, hw⟩ := hn.waits q hq
    refine ⟨c, ?_, hw⟩
    rw [hchildren, List.getElem?_append_left (List.getElem?_eq_some_iff.mp hc).1]
    exact hc
  · intro c hc hw
    rw [hchildren, List.mem_append, List.mem_singleton] at hc
    rcases hc with hc | rfl
    · exact hn.ended c hc hw
    · cases hw
  · rw [hchildren, sum_map_concat]
    exact hn.waited
  · rw [hchildren, sum_map_concat]
    exact hn.crashed
  · rw [hchildren, sum_map_concat, List.length_append, List.length_singleton]
    exact hborn
  · rw [hchildren, sum_map_concat, hparent]
    change l.length + 1 = _
    rw [hn.steps]
    rfl

/-- A step of the parent that concerns no child. -/
lemma Counts.parent (hn : Counts x l s hand started) (hchildren : s'.children = s.children)
    (hparent : s'.parent.steps x.m = s.parent.steps x.m + 1)
    (hborn : s.children.length =
      started + (s.children.map fun c => (c.waited && c.pc.crashed).toNat).sum) :
    Counts x { l with reads := read, length := l.length + 1 } s' none started := by
  constructor
  · rw [hchildren]
    exact hn.forks
  · rw [hchildren]
    exact hn.waits
  · rw [hchildren]
    exact hn.ended
  · rw [hchildren]
    exact hn.waited
  · rw [hchildren]
    exact hn.crashed
  · rw [hchildren]
    exact hborn
  · rw [hchildren, hparent]
    change l.length + 1 = _
    rw [hn.steps]
    rfl

lemma Counts.waitpid (hn : Counts x l s none started) {q : ℕ} {c : Child} {status : Status}
    (hc : s.children[q]? = some c) (hw : c.waited = false) (hend : c.pc = .ended status)
    (hpc : s.parent = .loop) (hpc' : s'.parent = .handle)
    (hchildren : s'.children = s.children.set q { c with waited := true })
    (hstatus : s'.statusId = status) :
    Counts x { l with waits := l.waits ++ [q], length := l.length + 1 } s' (some b) started := by
  have hlt := (List.getElem?_eq_some_iff.mp hc).1
  have hwaited := sum_map_set (fun c => c.waited.toNat) hc { c with waited := true }
  have hborn := sum_map_set (fun c => (c.waited && c.pc.crashed).toNat) hc { c with waited := true }
  have hsteps := sum_map_set (Child.steps x.p) hc { c with waited := true }
  have htwo : Child.steps x.p { c with waited := true } = c.steps x.p + 2 := by
    simp [Child.steps, hw]
  constructor
  · rw [hchildren, List.length_set]
    exact hn.forks
  · intro q' hq'
    rw [hchildren]
    rcases List.mem_append.mp hq' with hq' | hq'
    · obtain ⟨c', hc', hw'⟩ := hn.waits q' hq'
      have hne : q ≠ q' := by
        rintro rfl
        rw [Option.some.inj (hc.symm.trans hc'), hw'] at hw
        cases hw
      exact ⟨c', by rw [List.getElem?_set_ne hne]; exact hc', hw'⟩
    · obtain rfl := List.mem_singleton.mp hq'
      exact ⟨_, List.getElem?_set_self hlt, rfl⟩
  · intro c' hc' hw'
    rw [hchildren] at hc'
    rcases List.mem_or_eq_of_mem_set hc' with hc' | rfl
    · exact hn.ended c' hc' hw'
    · exact ⟨status, hend⟩
  · rw [hchildren, List.length_append, List.length_singleton, hn.waited]
    simp only [hw, Bool.toNat_false, Bool.toNat_true] at hwaited
    omega
  · rw [hchildren, sum_map_set_eq hc]
    · exact hn.crashed
    · rfl
  · have hall := hn.born
    rw [if_neg (by simp)] at hall
    rw [hchildren, List.length_set, hstatus]
    simp only [hw, Bool.false_and, Bool.true_and, Bool.toNat_false] at hborn
    cases status with
    | exited =>
      have hbit : c.pc.crashed.toNat = 0 := by
        rw [hend]
        rfl
      rw [if_neg (by simp)]
      omega
    | signaled =>
      have hbit : c.pc.crashed.toNat = 1 := by
        rw [hend]
        rfl
      rw [if_pos (by simp)]
      omega
  · have hall := hn.steps
    rw [hpc] at hall
    rw [hchildren, hpc']
    simp only [ParentPC.steps] at hall ⊢
    omega

/-- Every step of the parent keeps the counts. -/
lemma Counts.move {hand' : Option Job} {jobs' : List Job}
    (hm : Move x s hand jobs started e s' hand' jobs' started')
    (hn : Counts x l s hand started) : Counts x (l.record e) s' hand' started' := by
  have hborn := hn.born
  cases hm with
  | fork hchildren _ _ hparent =>
    rw [if_neg (by simp)] at hborn
    exact hn.spawn hchildren hparent (by omega)
  | idle hchildren _ _ hparent =>
    rw [if_neg (by simp)] at hborn
    exact hn.parent hchildren hparent (by omega)
  | waitpid hc hw hend hchildren hstatus _ _ hpc hpc' =>
    exact hn.waitpid hc hw hend hpc hpc' hchildren hstatus
  | read hstatus hchildren _ _ hparent =>
    rw [if_neg (by simp [hstatus])] at hborn
    exact hn.parent hchildren hparent (by omega)
  | refork hstatus hchildren _ _ hparent =>
    rw [if_pos (by simp [hstatus])] at hborn
    exact hn.spawn hchildren hparent hborn

end Parent

/-! ## Runs -/

section Run

variable {x : Input} {crashRate : ℤ} {capacity : ℕ} {junk s s' : State} {es : List Event} {l : Log}
  {e : Event}

lemma record_reads (l : Log) (e : Event) : (l.record e).reads = l.reads ++ reads [e] := by
  cases e <;> simp [Log.record, reads]

lemma ChildStep.inv {q : ℕ} (hi : Inv x l s) (hs : ChildStep x crashRate capacity q s e s') :
    Inv x (l.record e) s' := by
  obtain ⟨failed, hand, todo, started, hp, hj, hn⟩ := hi
  have hrows := ((jobs_iff.mp hj).childStep (exact_kept x) hn.ended hs).1
  refine ⟨failed, hand, todo, started, hp.childStep hs, jobs_iff.mpr ?_, hn.childStep hs⟩
  rw [record_reads, hs.reads_eq_nil, List.append_nil]
  exact hrows

lemma ParentStep.inv (hi : Inv x l s) (hs : ParentStep x s e s') : Inv x (l.record e) s' := by
  obtain ⟨failed, hand, todo, started, hp, hj, hn⟩ := hi
  obtain ⟨failed', hand', todo', started', hp', hm⟩ := hs.move hp (jobs_iff.mp hj)
  refine ⟨failed', hand', todo', started', hp', jobs_iff.mpr ?_, hn.move hm⟩
  rw [record_reads]
  exact (jobs_iff.mp hj).move (exact_kept x) hm

lemma inv_start (x : Input) (junk : State) : Inv x (log []) (start x junk) := by
  refine ⟨[], none, [], 0, .fork rfl (Nat.zero_le _) ⟨le_rfl, nofun, nofun⟩ rfl rfl rfl rfl, ?_, ?_⟩
  · exact ⟨List.Perm.nil, nofun, nofun, nofun, nofun, nofun⟩
  · exact ⟨rfl, nofun, nofun, rfl, rfl, rfl, rfl⟩

theorem Exec.inv (hrun : Exec x crashRate capacity junk es s) : Inv x (log es) s := by
  induction hrun with
  | start => exact inv_start x junk
  | step _ hstep ih =>
    rw [log_concat]
    cases hstep with
    | parent hs => exact hs.inv ih
    | child q hs => exact hs.inv ih

/-- The parent waits for a child that has been forked and not been waited for. -/
lemma waitpid_running {q : ℕ} {s' : State} (hi : Inv x l s)
    (hstep : Step x crashRate capacity s (.waitpid q) s') : q ∈ l.forks ∧ q ∉ l.waits := by
  obtain ⟨failed, hand, todo, started, hp, hj, hn⟩ := hi
  cases hstep with
  | child q' hs => cases hs
  | parent hs =>
    have hcurrent : ∃ c, s.children[q]? = some c ∧ c.waited = false := by
      cases hs with
      | waitpid hpc hleft hc hw hend => exact ⟨_, hc, hw⟩
      | waitpidFails hpc hleft hc =>
        obtain ⟨rest, rfl, -⟩ := hp.current hpc hleft
        obtain ⟨c, hc', -, hw⟩ := hj.live (s.job s.j) (by simp)
        exact ⟨c, hc', hw⟩
    obtain ⟨c, hc, hw⟩ := hcurrent
    constructor
    · rw [hn.forks, List.mem_range]
      exact (List.getElem?_eq_some_iff.mp hc).1
    · intro hq
      obtain ⟨c', hc', hw'⟩ := hn.waits q hq
      rw [Option.some.inj (hc.symm.trans hc'), hw'] at hw
      cases hw

lemma Exec.prefix {es₁ es₂ : List Event}
    (hrun : Exec x crashRate capacity junk (es₁ ++ es₂) s) :
    ∃ s₁, Exec x crashRate capacity junk es₁ s₁ := by
  induction es₂ using List.reverseRecOn generalizing s with
  | nil =>
    rw [List.append_nil] at hrun
    exact ⟨s, hrun⟩
  | append_singleton es₂ e ih =>
    rw [← List.append_assoc] at hrun
    generalize hes : es₁ ++ es₂ ++ [e] = es at hrun
    cases hrun with
    | start => simp at hes
    | step hrun hstep =>
      obtain ⟨rfl, -⟩ := List.append_inj' hes rfl
      exact ih hrun

/-- A child takes at most `p + 4` steps. -/
lemma steps_le {hand : Option Job} {jobs : List Job} {started : ℕ}
    (hj : Jobs x l.reads s hand jobs started) (hn : Counts x l s hand started) {c : Child}
    (hc : c ∈ s.children) : c.steps x.p ≤ x.p + 4 := by
  obtain ⟨q, hq⟩ := List.getElem?_of_mem hc
  cases hw : c.waited with
  | true =>
    obtain ⟨status, hend⟩ := hn.ended c hc hw
    cases status <;> simp [Child.steps, hend, hw]
  | false =>
    have hle := (hj.written q c hq hw).1
    unfold Child.steps
    rw [hw]
    cases hpc : c.pc with
    | simulateCrash => simp
    | write j =>
      rw [hpc] at hle
      simp only [ChildPC.written] at hle
      simp only [Bool.false_eq_true, if_false]
      omega
    | ended status => cases status <;> simp

/-- Runs are as long as the number of crashes allows. -/
lemma length_le (hi : Inv x l s) :
    l.length ≤ (x.p + 4) * (x.m + l.crashes.length) + x.m + 2 := by
  obtain ⟨failed, hand, todo, started, hp, hj, hn⟩ := hi
  have hstarted : started ≤ x.m ∧ s.parent.steps x.m ≤ x.m + 2 := by
    cases hp with
    | fork hpc hi =>
      rw [hpc]
      simp only [ParentPC.steps]
      omega
    | loop hpc => rw [hpc]; simp [ParentPC.steps]
    | handle hpc => rw [hpc]; simp [ParentPC.steps]
    | done hpc => rw [hpc]; simp [ParentPC.steps]
  have hsum : (s.children.map (Child.steps x.p)).sum ≤ s.children.length * (x.p + 4) := by
    have := List.sum_le_card_nsmul (s.children.map (Child.steps x.p)) (x.p + 4) fun k hk => by
      obtain ⟨c, hc, rfl⟩ := List.mem_map.mp hk
      exact steps_le hj hn hc
    simpa using this
  have hcrashed : (s.children.map fun c => (c.waited && c.pc.crashed).toNat).sum ≤
      l.crashes.length := by
    rw [hn.crashed]
    apply List.sum_le_sum
    intro c _
    cases c.waited <;> simp
  have hborn := hn.born
  have hchildren : s.children.length ≤ x.m + l.crashes.length := by omega
  have hmul := Nat.mul_le_mul_right (x.p + 4) hchildren
  rw [hn.steps, Nat.mul_comm (x.p + 4)]
  omega

/-- A running child can go on while a row fits into a pipe. -/
lemma child_progress (hroom : 4 * x.p ≤ capacity) {hand : Option Job} {jobs : List Job}
    {started q : ℕ} {c : Child} (hj : Jobs x l.reads s hand jobs started)
    (hc : s.children[q]? = some c) (hw : c.waited = false)
    (hpc : ∀ status, c.pc ≠ .ended status) :
    ∃ s', ChildStep x crashRate capacity q s .silent s' := by
  obtain ⟨hle, hpipe⟩ := hj.written q c hc hw
  cases hc' : c.pc with
  | simulateCrash => exact ⟨_, .survive hc hc'⟩
  | write j =>
    rw [hc'] at hle hpipe
    simp only [ChildPC.written] at hle hpipe
    rcases Nat.lt_or_eq_of_le hle with hlt | rfl
    · refine ⟨_, .write hc hc' hlt ?_⟩
      rw [hpipe, List.length_take, serialRow_length]
      omega
    · exact ⟨_, .exit hc hc'⟩
  | ended status => exact absurd hc' (hpc status)

/-- Then every state but the last has a next one. -/
lemma progress (hroom : 4 * x.p ≤ capacity) (hi : Inv x l s) (hdone : s.parent ≠ .done) :
    ∃ e s', Step x crashRate capacity s e s' ∧ crashes [e] = [] := by
  obtain ⟨failed, hand, todo, started, hp, hj, hn⟩ := hi
  cases hpc : s.parent with
  | fork i =>
    cases hp with
    | fork hpc' hi =>
      rcases Nat.lt_or_eq_of_le hi with hlt | heq
      · exact ⟨_, _, .parent (.fork hpc' hlt), rfl⟩
      · exact ⟨_, _, .parent (.forked (heq ▸ hpc')), rfl⟩
    | _ hpc' =>
      rw [hpc] at hpc'
      cases hpc'
  | loop =>
    by_cases hleft : s.procLeft = 0
    · exact ⟨_, _, .parent (.finish hpc hleft), rfl⟩
    · obtain ⟨rest, rfl, -⟩ := hp.current hpc hleft
      obtain ⟨c, hc, -, hw⟩ := hj.live (s.job s.j) (by simp)
      by_cases hend : ∃ status, c.pc = .ended status
      · obtain ⟨status, hend⟩ := hend
        exact ⟨_, _, .parent (.waitpid hpc hleft hc hw hend), rfl⟩
      · obtain ⟨s', hs⟩ := child_progress hroom hj hc hw
          fun status h => hend ⟨status, h⟩
        exact ⟨_, s', .child _ hs, rfl⟩
  | handle =>
    obtain ⟨rfl, -⟩ := hp.atHandle hpc
    cases hstatus : s.statusId with
    | exited =>
      refine ⟨_, _, .parent (.read hpc hstatus ?_), rfl⟩
      have hpipe := hj.inHand (s.job s.j) rfl
      rw [hstatus] at hpipe
      rw [or_iff_not_imp_right]
      intro hp0 hnil
      have hlen := congrArg List.length (hpipe.symm.trans hnil)
      simp only [ChildPC.written, List.length_take, serialRow_length, List.length_nil] at hlen
      omega
    | signaled => exact ⟨_, _, .parent (.refork hpc hstatus), rfl⟩
  | done => exact absurd hpc hdone

/-- What the loop leaves behind. -/
lemma at_end (hi : Inv x l s) (hdone : s.parent = .done) :
    l.waits.length = x.m + l.crashes.length ∧ l.reads.Perm (List.range x.m) ∧
      ∀ i < x.m, ∀ k < x.p, s.cParallel i k = serialMatMult x i k := by
  obtain ⟨failed, hand, todo, started, hp, hj, hn⟩ := hi
  cases hp with
  | done _ =>
    have hrows : l.reads.Perm (List.range x.m) := by
      have := hj.rows
      rwa [List.append_nil, Option.toList_none, List.append_nil, List.map_nil, List.append_nil]
        at this
    -- no job is left, so all children have been waited for
    have hwaited : ∀ c ∈ s.children, c.waited = true := by
      intro c hc
      obtain ⟨q, hq⟩ := List.getElem?_of_mem hc
      by_contra hw
      obtain ⟨b, hb, -⟩ := hj.owned q c hq (Bool.eq_false_of_not_eq_true hw)
      cases hb
    have hall : (s.children.map fun c => c.waited.toNat).sum = s.children.length := by
      rw [List.map_congr_left fun c hc => by rw [hwaited c hc]]
      simp
    have hcrashed : (s.children.map fun c => (c.waited && c.pc.crashed).toNat).sum =
        l.crashes.length := by
      rw [hn.crashed, List.map_congr_left fun c hc => by rw [hwaited c hc, Bool.true_and]]
    have hborn := hn.born
    rw [if_neg (by simp), hcrashed, Nat.add_zero] at hborn
    refine ⟨by rw [hn.waited, hall, hborn], hrows, fun i hi k hk => ?_⟩
    rw [hj.stored i (hrows.mem_iff.mpr (List.mem_range.mpr hi)) k hk, serialMatMult,
      if_pos ⟨hi, hk⟩]
  | _ hpc =>
    rw [hdone] at hpc
    cases hpc

/-- With rows that fit into a pipe, every run ends as soon as crashes end; each `waitpid` is on a
child that has been forked and not been waited for; and at the end of the loop there have been
as many iterations as rows and crashes, each row has been read once, and the product is right. -/
theorem crash_recovery (x : Input) (crashRate : ℤ) (capacity : ℕ) (hroom : 4 * x.p ≤ capacity)
    (junk : State) (es : List Event) (s : State) (hrun : Exec x crashRate capacity junk es s) :
    (es.length ≤ (x.p + 4) * (x.m + (crashes es).length) + x.m + 2 ∧
      (s.parent ≠ .done → ∃ e s', Step x crashRate capacity s e s' ∧ crashes [e] = [])) ∧
    (∀ es₁ q es₂, es = es₁ ++ .waitpid q :: es₂ → q ∈ forks es₁ ∧ q ∉ waits es₁) ∧
    (s.parent = .done →
      (waits es).length = x.m + (crashes es).length ∧ (reads es).Perm (List.range x.m) ∧
        ∀ i < x.m, ∀ k < x.p, s.cParallel i k = serialMatMult x i k) := by
  have hi := hrun.inv
  refine ⟨⟨length_le hi, progress hroom hi⟩, ?_, at_end hi⟩
  rintro es₁ q es₂ rfl
  rw [List.append_cons] at hrun
  obtain ⟨s₁, hrun₁⟩ := hrun.prefix
  generalize hes : es₁ ++ [Event.waitpid q] = es at hrun₁
  cases hrun₁ with
  | start => simp at hes
  | step hrun₀ hstep =>
    obtain ⟨rfl, he⟩ := List.append_inj' hes rfl
    obtain rfl := List.head_eq_of_cons_eq he
    exact waitpid_running hrun₀.inv hstep

/-- The first child for the only row crashes, the second completes. -/
theorem crash_recovery_one :
    (waits [.fork 0 0, .silent, .crash 0, .waitpid 0, .fork 1 0, .silent, .silent, .silent,
      .waitpid 1, .read 0, .silent]).length = 2 := by
  have h₁ := Exec.step
    (Exec.start : Exec ⟨1, 1, 1, fun _ _ => 2, fun _ _ => 3⟩ 30 65536 default _ _)
    (.parent (.fork rfl Nat.zero_lt_one))
  have h₂ := h₁.step (.parent (.forked rfl))
  have h₃ := h₂.step (.child 0 (.crash rfl rfl (by decide)))
  have h₄ := h₃.step (.parent (.waitpid rfl (by decide) rfl rfl rfl))
  have h₅ := h₄.step (.parent (.refork rfl rfl))
  have h₆ := h₅.step (.child 1 (.survive rfl rfl))
  have h₇ := h₆.step (.child 1 (.write rfl rfl Nat.zero_lt_one (by decide)))
  have h₈ := h₇.step (.child 1 (.exit rfl rfl))
  have h₉ := h₈.step (.parent (.waitpid rfl (by decide) rfl rfl rfl))
  have h₁₀ := h₉.step (.parent (.read rfl rfl (Or.inl (by decide))))
  have h₁₁ := h₁₀.step (.parent (.finish rfl rfl))
  exact ((crash_recovery _ _ _ (by decide) _ _ _ h₁₁).2.2 rfl).1

end Run

end OsProjects.MatMul
