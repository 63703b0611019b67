import OsProjects.MatMul.Machine

/-!
# Rows, jobs and pipes

The arrays `pid` and `pid_to_pipe` hold two lists of jobs: those that failed in
the current round, from the front of the arrays, and those the round has still
to wait for, from `j` to `end`.  `Phase` ties the variables of the parent to
these lists; `Rows` says that together with the rows read so far they are all
rows, each once, that every running child belongs to a job, and what the pipes
hold.  What a step of the parent does to children, pipes and results is a `Move`.
-/

namespace OsProjects.MatMul

/-- A slot of the arrays of the parent. -/
structure Job where
  pid : ℕ
  row : ℕ

def State.job (s : State) (a : ℕ) : Job := ⟨s.pid a, s.pidToPipe a⟩

/-- The slots from `0` hold the jobs `failed`, the slots from `a` the jobs `todo`. -/
structure Slots (job : ℕ → Job) (a : ℕ) (failed todo : List Job) : Prop where
  le : failed.length ≤ a
  failed : ∀ (i : ℕ) (b : Job), failed[i]? = some b → job i = b
  todo : ∀ (i : ℕ) (b : Job), todo[i]? = some b → job (a + i) = b

/-- The jobs of the parent in state `s`, the one that `waitpid` has returned for apart.
The rows below `started` have been forked. -/
inductive Phase (x : Input) (s : State) : List Job → Option Job → List Job → ℕ → Prop
  | fork {i : ℕ} {todo : List Job} (hpc : s.parent = .fork i) (hi : i ≤ x.m)
      (hslots : Slots s.job 0 [] todo) (hlen : todo.length = i) (hfail : s.failP = 0)
      (hend : s.endIndex = x.m - 1) (hleft : s.procLeft = x.m) : Phase x s [] none todo i
  | loop {failed todo : List Job} (hpc : s.parent = .loop)
      (hslots : Slots s.job s.j failed todo) (hfail : s.failP = failed.length)
      (hend : s.endIndex + 1 = s.j + todo.length)
      (hleft : s.procLeft = failed.length + todo.length) (hnil : todo = [] → failed = []) :
      Phase x s failed none todo x.m
  | handle {failed todo : List Job} (hpc : s.parent = .handle)
      (hslots : Slots s.job (s.j + 1) failed todo) (hle : failed.length ≤ s.j)
      (hfail : s.failP = failed.length) (hend : s.endIndex = s.j + todo.length)
      (hleft : s.procLeft = failed.length + todo.length + 1) :
      Phase x s failed (some (s.job s.j)) todo x.m
  | done (hpc : s.parent = .done) : Phase x s [] none [] x.m

/-- The row as the children compute it. -/
def serialRow (x : Input) (row : ℕ) : List Int32 :=
  (List.range x.p).map fun j => linearMult (x.A row) (x.bTran j) x.n

/-- How many of its `p` elements a child has written. -/
def ChildPC.written (p : ℕ) : ChildPC → ℕ
  | .write j => j
  | .ended .exited => p
  | _ => 0

/-- The jobs, where `holds row k` is what the pipe of the row may hold once the child that
works on it has written `k` elements. -/
structure Rows (x : Input) (holds : ℕ → ℕ → List Int32 → Prop) (read : List ℕ) (s : State)
    (hand : Option Job) (jobs : List Job) (started : ℕ) : Prop where
  rows : (read ++ (hand.toList ++ jobs).map Job.row).Perm (List.range started)
  live : ∀ b ∈ jobs, ∃ c, s.children[b.pid]? = some c ∧ c.row = b.row ∧ c.waited = false
  owned : ∀ (q : ℕ) (c : Child), s.children[q]? = some c → c.waited = false →
    ∃ b ∈ jobs, b.pid = q
  written : ∀ (q : ℕ) (c : Child), s.children[q]? = some c → c.waited = false →
    c.pc.written x.p ≤ x.p ∧ holds c.row (c.pc.written x.p) (s.pipes c.row)
  inHand : ∀ b ∈ hand,
    holds b.row ((ChildPC.ended s.statusId).written x.p) (s.pipes b.row)
  stored : ∀ row ∈ read, ∀ k < x.p,
    s.cParallel row k = linearMult (x.A row) (x.bTran k) x.n

/-- What is kept of the contents of a pipe while its row is worked on. -/
structure Kept (x : Input) (holds : ℕ → ℕ → List Int32 → Prop) : Prop where
  empty : ∀ row, holds row 0 []
  write : ∀ (row k : ℕ) (pipe : List Int32), k < x.p → holds row k pipe →
    holds row (k + 1) (pipe ++ [linearMult (x.A row) (x.bTran k) x.n])
  full : ∀ (row : ℕ) (pipe : List Int32), holds row x.p pipe → pipe.take x.p = serialRow x row

/-- The other steps of the parent. -/
def ParentPC.steps (m : ℕ) : ParentPC → ℕ
  | .fork i => i
  | .loop => m + 1
  | .handle => m
  | .done => m + 2

/-- Only children that have ended have been waited for. -/
def WaitedEnded (s : State) : Prop :=
  ∀ c ∈ s.children, c.waited = true → ∃ status, c.pc = .ended status

/-! ## Rows and children -/

section Rows

variable {x : Input} {holds : ℕ → ℕ → List Int32 → Prop} {read : List ℕ} {s : State}
  {hand : Option Job} {jobs : List Job} {started : ℕ}

lemma Rows.nodup (hj : Rows x holds read s hand jobs started) :
    (read ++ (hand.toList ++ jobs).map Job.row).Nodup :=
  hj.rows.nodup_iff.mpr List.nodup_range

lemma Rows.row_lt (hj : Rows x holds read s hand jobs started) {b : Job} (hb : b ∈ jobs) :
    b.row < started := by
  rw [← List.mem_range, ← hj.rows.mem_iff]
  exact List.mem_append_right _
    (List.mem_map_of_mem (List.mem_append_right _ hb))

lemma Rows.row_inj (hj : Rows x holds read s hand jobs started) {b b' : Job} (hb : b ∈ jobs)
    (hb' : b' ∈ jobs) (h : b.row = b'.row) : b = b' := by
  have hnd := (List.nodup_append.mp hj.nodup).2.1
  exact List.inj_on_of_nodup_map hnd (List.mem_append_right _ hb) (List.mem_append_right _ hb') h

lemma Rows.row_ne_hand (hj : Rows x holds read s hand jobs started) {b h : Job} (hb : b ∈ jobs)
    (hh : h ∈ hand) : b.row ≠ h.row := by
  have hnd := (List.nodup_append.mp hj.nodup).2.1
  rw [List.map_append] at hnd
  intro heq
  exact (List.nodup_append.mp hnd).2.2 h.row
    (List.mem_map_of_mem (Option.mem_toList.mpr hh)) b.row (List.mem_map_of_mem hb) heq.symm

/-- The row of a running child is the row of its job. -/
lemma Rows.job_of_child (hj : Rows x holds read s hand jobs started) {q : ℕ} {c : Child}
    (hc : s.children[q]? = some c) (hw : c.waited = false) :
    ∃ b ∈ jobs, b.pid = q ∧ b.row = c.row := by
  obtain ⟨b, hb, rfl⟩ := hj.owned q c hc hw
  obtain ⟨c', hc', hrow, -⟩ := hj.live b hb
  obtain rfl : c = c' := Option.some.inj (hc.symm.trans hc')
  exact ⟨b, hb, rfl, hrow.symm⟩

/-- Two running children work on different rows. -/
lemma Rows.child_row_ne (hj : Rows x holds read s hand jobs started) {q q' : ℕ} {c c' : Child}
    (hc : s.children[q]? = some c) (hw : c.waited = false) (hc' : s.children[q']? = some c')
    (hw' : c'.waited = false) (hq : q' ≠ q) : c'.row ≠ c.row := by
  obtain ⟨b, hb, hpid, hrow⟩ := hj.job_of_child hc hw
  obtain ⟨b', hb', hpid', hrow'⟩ := hj.job_of_child hc' hw'
  intro heq
  have hbb : b' = b := hj.row_inj hb' hb (by rw [hrow', hrow, heq])
  exact hq (by rw [← hpid', ← hpid, hbb])

end Rows

lemma serialRow_length (x : Input) (row : ℕ) : (serialRow x row).length = x.p := by
  simp [serialRow]

lemma serialRow_take_succ (x : Input) (row : ℕ) {j : ℕ} (hj : j < x.p) :
    (serialRow x row).take (j + 1) =
      (serialRow x row).take j ++ [linearMult (x.A row) (x.bTran j) x.n] := by
  rw [List.take_add_one, serialRow, List.getElem?_map, List.getElem?_range hj]
  rfl

/-! ## Steps of a child -/

section Child

variable {x : Input} {holds : ℕ → ℕ → List Int32 → Prop} {read : List ℕ} {s : State}
  {failed todo jobs : List Job} {hand : Option Job} {started : ℕ} {crashRate : ℤ} {capacity q : ℕ}
  {c : Child} {e : Event} {s' : State}

/-- The parent does not look at children or pipes outside of its system calls. -/
lemma Phase.frame (hp : Phase x s failed hand todo started) (children : List Child)
    (pipes : ℕ → List Int32) :
    Phase x { s with children := children, pipes := pipes } failed hand todo started := by
  cases hp with
  | fork hpc hi hslots hlen hfail hend hleft => exact .fork hpc hi hslots hlen hfail hend hleft
  | loop hpc hslots hfail hend hleft hnil => exact .loop hpc hslots hfail hend hleft hnil
  | handle hpc hslots hle hfail hend hleft => exact .handle hpc hslots hle hfail hend hleft
  | done hpc => exact .done hpc

lemma getElem?_set_cases {children : List Child} {q q' : ℕ} {b c c' : Child}
    (hc : children[q]? = some c) (h : (children.set q b)[q']? = some c') :
    (q' = q ∧ c' = b) ∨ (q' ≠ q ∧ children[q']? = some c') := by
  by_cases hq : q' = q
  · rw [hq, List.getElem?_set_self (List.getElem?_eq_some_iff.mp hc).1] at h
    exact Or.inl ⟨hq, (Option.some.inj h).symm⟩
  · rw [List.getElem?_set_ne (Ne.symm hq)] at h
    exact Or.inr ⟨hq, h⟩

/-- A running child goes to `pc`, with its pipe as it then is. -/
lemma Rows.goto (hj : Rows x holds read s hand jobs started) (hc : s.children[q]? = some c)
    (hw : c.waited = false) (pc : ChildPC) {pipe : List Int32} (hle : pc.written x.p ≤ x.p)
    (hpipe : holds c.row (pc.written x.p) pipe) :
    Rows x holds read { s.goto q c pc with pipes := Function.update s.pipes c.row pipe } hand jobs
      started := by
  have hlt := (List.getElem?_eq_some_iff.mp hc).1
  refine
    { hj with
      live := fun b hb => ?_
      owned := fun q' c' hc' hw' => ?_
      written := fun q' c' hc' hw' => ?_
      inHand := fun b hb => ?_ }
  · obtain ⟨c', hc', hrow, hw'⟩ := hj.live b hb
    -- the child of a job moves within its row, or it is another one
    by_cases hq : b.pid = q
    · rw [hq] at hc'
      obtain rfl : c = c' := Option.some.inj (hc.symm.trans hc')
      refine ⟨{ c with pc := pc }, ?_, hrow, hw⟩
      change (s.children.set q _)[b.pid]? = _
      rw [hq, List.getElem?_set_self hlt]
    · refine ⟨c', ?_, hrow, hw'⟩
      change (s.children.set q _)[b.pid]? = _
      rw [List.getElem?_set_ne (Ne.symm hq)]
      exact hc'
  · rcases getElem?_set_cases hc hc' with ⟨rfl, rfl⟩ | ⟨-, hc'⟩
    · exact hj.owned q' c hc hw
    · exact hj.owned q' c' hc' hw'
  · rcases getElem?_set_cases hc hc' with ⟨rfl, rfl⟩ | ⟨hq, hc'⟩
    · refine ⟨hle, ?_⟩
      change holds c.row _ (Function.update s.pipes c.row pipe c.row)
      rw [Function.update_self]
      exact hpipe
    · obtain ⟨hle', hpipe'⟩ := hj.written q' c' hc' hw'
      refine ⟨hle', ?_⟩
      change holds c'.row _ (Function.update s.pipes c.row pipe c'.row)
      rw [Function.update_of_ne (hj.child_row_ne hc hw hc' hw' hq)]
      exact hpipe'
  · obtain ⟨b', hb', -, hrow⟩ := hj.job_of_child hc hw
    -- the job in hand is none of those to wait for
    have hne : b.row ≠ c.row := by
      rw [← hrow]
      exact (hj.row_ne_hand hb' hb).symm
    change holds b.row _ (Function.update s.pipes c.row pipe b.row)
    rw [Function.update_of_ne hne]
    exact hj.inHand b hb

/-- A child that has steps left has not been waited for. -/
lemma WaitedEnded.running (hn : WaitedEnded s) (hc : s.children[q]? = some c)
    (hpc : ∀ status, c.pc ≠ .ended status) : c.waited = false := by
  by_contra hw
  obtain ⟨status, hend⟩ := hn c (List.mem_of_getElem? hc) (Bool.eq_true_of_not_eq_false hw)
  exact hpc status hend

lemma ChildStep.reads_eq_nil (hs : ChildStep x crashRate capacity q s e s') : reads [e] = [] := by
  cases hs <;> rfl

lemma Phase.childStep (hp : Phase x s failed hand todo started)
    (hs : ChildStep x crashRate capacity q s e s') : Phase x s' failed hand todo started := by
  cases hs with
  | crash => exact hp.frame _ _
  | survive => exact hp.frame _ _
  | write => exact hp.frame _ _
  | exit => exact hp.frame _ _

lemma WaitedEnded.goto (hn : WaitedEnded s) (hw : c.waited = false) (pc : ChildPC)
    (pipes : ℕ → List Int32) : WaitedEnded { s.goto q c pc with pipes := pipes } := by
  intro c' hc' hw'
  rcases List.mem_or_eq_of_mem_set hc' with hc' | rfl
  · exact hn c' hc' hw'
  · rw [hw] at hw'
    cases hw'

/-- What a child does with its pipe is what `Kept` allows. -/
lemma Rows.childStep (hk : Kept x holds) (hn : WaitedEnded s)
    (hs : ChildStep x crashRate capacity q s e s') (hj : Rows x holds read s hand jobs started) :
    Rows x holds read s' hand jobs started ∧ WaitedEnded s' := by
  cases hs with
  | @crash c hc hpc hcrash =>
    have hw := hn.running hc (by rw [hpc]; exact nofun)
    have hpipe := (hj.written q c hc hw).2
    rw [hpc] at hpipe
    have hj' := hj.goto hc hw (.ended .signaled) (Nat.zero_le _) hpipe
    rw [Function.update_eq_self] at hj'
    exact ⟨hj', hn.goto hw _ _⟩
  | @survive c hc hpc =>
    have hw := hn.running hc (by rw [hpc]; exact nofun)
    have hpipe := (hj.written q c hc hw).2
    rw [hpc] at hpipe
    have hj' := hj.goto hc hw (.write 0) (Nat.zero_le _) hpipe
    rw [Function.update_eq_self] at hj'
    exact ⟨hj', hn.goto hw _ _⟩
  | @write c j hc hpc hlt hroom =>
    have hw := hn.running hc (by rw [hpc]; exact nofun)
    have hpipe := (hj.written q c hc hw).2
    rw [hpc] at hpipe
    exact ⟨hj.goto hc hw (.write (j + 1)) hlt (hk.write _ _ _ hlt hpipe), hn.goto hw _ _⟩
  | @exit c hc hpc =>
    have hw := hn.running hc (by rw [hpc]; exact nofun)
    have hpipe := (hj.written q c hc hw).2
    rw [hpc] at hpipe
    have hj' := hj.goto hc hw (.ended .exited) le_rfl hpipe
    rw [Function.update_eq_self] at hj'
    exact ⟨hj', hn.goto hw _ _⟩

end Child

/-! ## Steps of the parent -/

section Parent

variable {x : Input} {holds : ℕ → ℕ → List Int32 → Prop} {read : List ℕ} {s s' : State}
  {failed todo before after jobs : List Job} {hand : Option Job} {b : Job}
  {started started' row : ℕ} {e : Event}

lemma Phase.started_le (hp : Phase x s failed hand todo started) : started ≤ x.m := by
  cases hp with
  | fork _ hi => exact hi
  | loop => exact le_rfl
  | handle => exact le_rfl
  | done => exact le_rfl

/-- The end of an iteration keeps the jobs, at the end of a round in new places. -/
lemma Phase.nextIteration (hslots : Slots s.job (s.j + 1) failed todo)
    (hfail : s.failP = failed.length) (hend : s.endIndex = s.j + todo.length)
    (hleft : s.procLeft = failed.length + todo.length) :
    ∃ failed' todo', failed' ++ todo' = failed ++ todo ∧
      Phase x s.nextIteration failed' none todo' x.m := by
  unfold State.nextIteration
  cases todo with
  | nil =>
    rw [if_pos (by rw [hend]; simp)]
    refine ⟨[], failed, by simp, .loop rfl ⟨Nat.zero_le _, nofun, ?_⟩ rfl ?_ ?_ fun _ => rfl⟩
    · intro i c hc
      rw [Nat.zero_add]
      exact hslots.failed i c hc
    · simp only [hleft, List.length_nil]
      omega
    · simp only [hleft, List.length_nil]
      omega
  | cons c todo =>
    rw [List.length_cons] at hend
    rw [if_neg (by omega)]
    refine ⟨failed, c :: todo, rfl, .loop rfl hslots hfail ?_ hleft nofun⟩
    simp only [hend, List.length_cons]
    omega

lemma nextIteration_frame (s : State) : ∃ j endIndex failP, s.nextIteration =
    { s with parent := .loop, j := j, endIndex := endIndex, failP := failP } := by
  unfold State.nextIteration
  split_ifs
  · exact ⟨_, _, _, rfl⟩
  · exact ⟨s.j + 1, s.endIndex, s.failP, rfl⟩

/-- With no job in hand, `Rows` speaks of children, pipes and results only. -/
lemma Rows.frame (hj : Rows x holds read s none jobs started) (hchildren : s'.children = s.children)
    (hpipes : s'.pipes = s.pipes) (hstored : s'.cParallel = s.cParallel) :
    Rows x holds read s' none jobs started := by
  constructor
  · exact hj.rows
  · rw [hchildren]
    exact hj.live
  · rw [hchildren]
    exact hj.owned
  · rw [hchildren, hpipes]
    exact hj.written
  · exact nofun
  · rw [hstored]
    exact hj.stored

/-- A new child, for a row that is no other job's. -/
lemma Rows.spawn (hj : Rows x holds read s hand (before ++ after) started)
    (hchildren :
      s'.children = s.children ++ [{ row := row, pc := .simulateCrash, waited := false }])
    (hother : ∀ b ∈ before ++ after, s'.pipes b.row = s.pipes b.row)
    (hpipe : holds row 0 (s'.pipes row))
    (hstored : s'.cParallel = s.cParallel)
    (hrows : (read ++ (before ++ ⟨s.children.length, row⟩ :: after).map Job.row).Perm
      (List.range started')) :
    Rows x holds read s' none (before ++ ⟨s.children.length, row⟩ :: after) started' := by
  have hmem : ∀ b, b ∈ before ++ ⟨s.children.length, row⟩ :: after ↔
      b = ⟨s.children.length, row⟩ ∨ b ∈ before ++ after := by
    intro b
    simp only [List.mem_append, List.mem_cons]
    tauto
  constructor
  · exact hrows
  · intro b hb
    rcases (hmem b).mp hb with rfl | hb
    · exact ⟨_, by rw [hchildren]; exact List.getElem?_concat_length, rfl, rfl⟩
    · obtain ⟨c, hc, hrow, hw⟩ := hj.live b hb
      refine ⟨c, ?_, hrow, hw⟩
      rw [hchildren, List.getElem?_append_left (List.getElem?_eq_some_iff.mp hc).1]
      exact hc
  · intro q c hc hw
    rw [hchildren] at hc
    by_cases hq : q < s.children.length
    · rw [List.getElem?_append_left hq] at hc
      obtain ⟨b, hb, hpid⟩ := hj.owned q c hc hw
      exact ⟨b, (hmem b).mpr (Or.inr hb), hpid⟩
    · have hlt := (List.getElem?_eq_some_iff.mp hc).1
      rw [List.length_append, List.length_singleton] at hlt
      exact ⟨_, (hmem _).mpr (Or.inl rfl), by simp only; omega⟩
  · intro q c hc hw
    rw [hchildren] at hc
    by_cases hq : q < s.children.length
    · rw [List.getElem?_append_left hq] at hc
      obtain ⟨b, hb, -, hrow⟩ := hj.job_of_child hc hw
      obtain ⟨hle, hpipe⟩ := hj.written q c hc hw
      rw [← hrow, ← hother b hb, hrow] at hpipe
      exact ⟨hle, hpipe⟩
    · obtain rfl : q = s.children.length := by
        have hlt := (List.getElem?_eq_some_iff.mp hc).1
        rw [List.length_append, List.length_singleton] at hlt
        omega
      rw [List.getElem?_concat_length] at hc
      obtain rfl := Option.some.inj hc
      exact ⟨Nat.zero_le _, hpipe⟩
  · exact nofun
  · rw [hstored]
    exact hj.stored

/-- The child that `waitpid` has returned for leaves the jobs to wait for. -/
lemma Rows.waitpid (hj : Rows x holds read s none (before ++ b :: after) started) {c : Child}
    {status : Status} (hc : s.children[b.pid]? = some c) (hend : c.pc = .ended status)
    (hchildren : s'.children = s.children.set b.pid { c with waited := true })
    (hstatus : s'.statusId = status) (hpipes : s'.pipes = s.pipes)
    (hstored : s'.cParallel = s.cParallel) :
    Rows x holds read s' (some b) (before ++ after) started := by
  have hmem : ∀ {b'}, b' ∈ before ++ after → b' ∈ before ++ b :: after := by
    intro b' hb'
    simp only [List.mem_append, List.mem_cons] at hb' ⊢
    tauto
  have hperm : (b :: (before ++ after)).Perm (before ++ b :: after) := List.perm_middle.symm
  have hb : b ∈ before ++ b :: after := by simp
  obtain ⟨c', hc', hrow, hw⟩ := hj.live b hb
  obtain rfl : c = c' := Option.some.inj (hc.symm.trans hc')
  constructor
  · exact ((hperm.map Job.row).append_left read).trans hj.rows
  · intro b' hb'
    obtain ⟨c', hc', hrow', hw'⟩ := hj.live b' (hmem hb')
    refine ⟨c', ?_, hrow', hw'⟩
    -- two jobs with one child would have one row, and be one job
    have hne : b.pid ≠ b'.pid := by
      intro hpid
      have hnd : (before ++ b :: after).Nodup :=
        (List.nodup_append.mp hj.nodup).2.1.of_map
      rw [hpid] at hc
      obtain rfl : c = c' := Option.some.inj (hc.symm.trans hc')
      have hbb := hj.row_inj hb (hmem hb') (hrow.symm.trans hrow')
      rw [← hbb] at hb'
      exact (List.nodup_cons.mp (hperm.nodup_iff.mpr hnd)).1 hb'
    rw [hchildren, List.getElem?_set_ne hne]
    exact hc'
  · intro q c' hc' hw'
    rw [hchildren] at hc'
    rcases getElem?_set_cases hc hc' with ⟨-, rfl⟩ | ⟨hq, hc'⟩
    · cases hw'
    · obtain ⟨b', hb', hpid⟩ := hj.owned q c' hc' hw'
      have hne : b' ≠ b := fun h => hq (by rw [← hpid, h])
      refine ⟨b', ?_, hpid⟩
      simp only [List.mem_append, List.mem_cons] at hb' ⊢
      tauto
  · intro q c' hc' hw'
    rw [hchildren] at hc'
    rw [hpipes]
    rcases getElem?_set_cases hc hc' with ⟨-, rfl⟩ | ⟨-, hc'⟩
    · cases hw'
    · exact hj.written q c' hc' hw'
  · intro b' hb'
    obtain rfl : b = b' := Option.some.inj hb'
    have hwritten := (hj.written b.pid c hc hw).2
    rw [hend, hrow] at hwritten
    rw [hpipes, hstatus]
    exact hwritten
  · rw [hstored]
    exact hj.stored

/-- The row of an exited child is complete in its pipe, and the parent stores it. -/
lemma Rows.readRow (hk : Kept x holds) (hj : Rows x holds read s (some b) jobs started)
    (hstatus : s.statusId = .exited)
    (hchildren : s'.children = s.children)
    (hpipes : s'.pipes = ((s.readPipe x.p b.row).storeRow x.p b.row).pipes)
    (hstored : s'.cParallel = ((s.readPipe x.p b.row).storeRow x.p b.row).cParallel) :
    Rows x holds (read ++ [b.row]) s' none jobs started := by
  have hpipe := hj.inHand b rfl
  rw [hstatus] at hpipe
  have hfull : (s.pipes b.row).take x.p = serialRow x b.row := hk.full _ _ hpipe
  constructor
  · have hrows := hj.rows
    rw [List.map_append, ← List.append_assoc] at hrows
    exact hrows
  · rw [hchildren]
    exact hj.live
  · rw [hchildren]
    exact hj.owned
  · intro q c hc hw
    rw [hchildren] at hc
    obtain ⟨b', hb', -, hrow⟩ := hj.job_of_child hc hw
    obtain ⟨hle, hpipe'⟩ := hj.written q c hc hw
    -- the children still running write into other pipes than the one that is drained
    have hne : c.row ≠ b.row := by
      rw [← hrow]
      exact hj.row_ne_hand hb' rfl
    refine ⟨hle, ?_⟩
    rw [hpipes]
    change holds c.row _ (Function.update s.pipes b.row _ c.row)
    rw [Function.update_of_ne hne]
    exact hpipe'
  · exact nofun
  · intro row hrow k hk'
    rw [hstored]
    change (if row = b.row ∧ k < x.p then ((s.pipes b.row).take x.p).getD k (s.buf k)
      else s.cParallel row k) = _
    rcases List.mem_append.mp hrow with hrow | hrow
    · have hne : row ≠ b.row := by
        intro heq
        refine (List.nodup_append.mp hj.nodup).2.2 row hrow b.row ?_ heq
        simp
      rw [if_neg fun h => hne h.1]
      exact hj.stored row hrow k hk'
    · obtain rfl := List.mem_singleton.mp hrow
      rw [if_pos ⟨rfl, hk'⟩, hfull]
      simp [serialRow, hk']

/-- The place of the new job of a forking parent. -/
lemma Slots.fork (hslots : Slots s.job 0 [] todo) {i : ℕ} (hi : todo.length = i) :
    Slots (s.forkChild i i).job 0 [] (todo ++ [⟨s.children.length, i⟩]) := by
  refine ⟨le_rfl, nofun, fun a b hb => ?_⟩
  rw [Nat.zero_add]
  change Job.mk (Function.update s.pid i _ a) (Function.update s.pidToPipe i i a) = b
  by_cases ha : a = i
  · rw [ha, ← hi, List.getElem?_concat_length, hi] at hb
    rw [ha, Function.update_self, Function.update_self]
    exact Option.some.inj hb
  · have hlt : a < todo.length := by
      have := (List.getElem?_eq_some_iff.mp hb).1
      rw [List.length_append, List.length_singleton] at this
      omega
    rw [List.getElem?_append_left hlt] at hb
    rw [Function.update_of_ne ha, Function.update_of_ne ha]
    have := hslots.todo a b hb
    rwa [Nat.zero_add] at this

/-- A failed job goes to the slot `fail_p`, which the scan has left behind. -/
lemma Slots.refork (hslots : Slots s.job (s.j + 1) failed todo) (hle : failed.length ≤ s.j)
    (row : ℕ) :
    Slots (s.forkChild failed.length row).job (s.j + 1)
      (failed ++ [⟨s.children.length, row⟩]) todo := by
  have hother : ∀ a, a ≠ failed.length → (s.forkChild failed.length row).job a = s.job a := by
    intro a ha
    change Job.mk (Function.update s.pid _ _ a) (Function.update s.pidToPipe _ _ a) = _
    rw [Function.update_of_ne ha, Function.update_of_ne ha]
    rfl
  refine ⟨?_, fun a b hb => ?_, fun a b hb => ?_⟩
  · rw [List.length_append, List.length_singleton]
    omega
  · by_cases ha : a = failed.length
    · rw [ha, List.getElem?_concat_length] at hb
      rw [ha]
      change Job.mk (Function.update s.pid _ _ _) (Function.update s.pidToPipe _ _ _) = _
      rw [Function.update_self, Function.update_self]
      exact Option.some.inj hb
    · have hlt : a < failed.length := by
        have := (List.getElem?_eq_some_iff.mp hb).1
        rw [List.length_append, List.length_singleton] at this
        omega
      rw [List.getElem?_append_left hlt] at hb
      rw [hother a ha]
      exact hslots.failed a b hb
  · rw [hother _ (by omega)]
    exact hslots.todo a b hb

/-- A parent that is not done with its loop has its slot `j` in the jobs of this round. -/
lemma Phase.current (hp : Phase x s failed hand todo started) (hpc : s.parent = .loop)
    (hleft : s.procLeft ≠ 0) :
    ∃ rest, todo = s.job s.j :: rest ∧ hand = none ∧ started = x.m ∧
      Slots s.job s.j failed todo ∧ s.failP = failed.length ∧
      s.endIndex = s.j + rest.length ∧ s.procLeft = failed.length + rest.length + 1 := by
  cases hp with
  | loop _ hslots hfail hend hleft' hnil =>
    cases todo with
    | nil =>
      rw [hnil rfl] at hleft'
      exact absurd hleft' hleft
    | cons b rest =>
      have hb : s.job s.j = b := hslots.todo 0 b rfl
      rw [List.length_cons] at hend hleft'
      refine ⟨rest, by rw [hb], rfl, rfl, hslots, hfail, ?_, ?_⟩
      · omega
      · omega
  | _ hpc' =>
    rw [hpc] at hpc'
    cases hpc'

lemma Phase.atFork (hp : Phase x s failed hand todo started) {i : ℕ} (hpc : s.parent = .fork i) :
    failed = [] ∧ hand = none ∧ started = i ∧ Slots s.job 0 [] todo ∧ todo.length = i ∧
      s.failP = 0 ∧ s.endIndex = x.m - 1 ∧ s.procLeft = x.m := by
  cases hp with
  | fork hpc' _ hslots hlen hfail hend hleft =>
    obtain rfl := ParentPC.fork.inj (hpc.symm.trans hpc')
    exact ⟨rfl, rfl, rfl, hslots, hlen, hfail, hend, hleft⟩
  | _ hpc' =>
    rw [hpc] at hpc'
    cases hpc'

lemma Phase.atHandle (hp : Phase x s failed hand todo started) (hpc : s.parent = .handle) :
    hand = some (s.job s.j) ∧ started = x.m ∧ Slots s.job (s.j + 1) failed todo ∧
      failed.length ≤ s.j ∧ s.failP = failed.length ∧ s.endIndex = s.j + todo.length ∧
        s.procLeft = failed.length + todo.length + 1 := by
  cases hp with
  | handle _ hslots hle hfail hend hleft => exact ⟨rfl, rfl, hslots, hle, hfail, hend, hleft⟩
  | _ hpc' =>
    rw [hpc] at hpc'
    cases hpc'

/-- What a step of the parent does to the children, the pipes and the results, and to the job
in its hand, the jobs to wait for and the rows forked. -/
inductive Move (x : Input) (s : State) :
    Option Job → List Job → ℕ → Event → State → Option Job → List Job → ℕ → Prop
  | fork {s' : State} {jobs : List Job} {i : ℕ}
      (hchildren :
        s'.children = s.children ++ [{ row := i, pc := .simulateCrash, waited := false }])
      (hpipes : s'.pipes = Function.update s.pipes i []) (hstored : s'.cParallel = s.cParallel)
      (hparent : s'.parent.steps x.m = s.parent.steps x.m + 1) :
      Move x s none jobs i (.fork s.children.length i) s' none
        (jobs ++ [⟨s.children.length, i⟩]) (i + 1)
  | idle {s' : State} {jobs : List Job} {started : ℕ} (hchildren : s'.children = s.children)
      (hpipes : s'.pipes = s.pipes) (hstored : s'.cParallel = s.cParallel)
      (hparent : s'.parent.steps x.m = s.parent.steps x.m + 1) :
      Move x s none jobs started .silent s' none jobs started
  | waitpid {s' : State} {before after : List Job} {b : Job} {started : ℕ} {c : Child}
      {status : Status} (hc : s.children[b.pid]? = some c) (hw : c.waited = false)
      (hend : c.pc = .ended status)
      (hchildren : s'.children = s.children.set b.pid { c with waited := true })
      (hstatus : s'.statusId = status) (hpipes : s'.pipes = s.pipes)
      (hstored : s'.cParallel = s.cParallel) (hpc : s.parent = .loop) (hpc' : s'.parent = .handle) :
      Move x s none (before ++ b :: after) started (.waitpid b.pid) s' (some b) (before ++ after)
        started
  | read {s' : State} {jobs : List Job} {b : Job} {started : ℕ} (hstatus : s.statusId = .exited)
      (hchildren : s'.children = s.children)
      (hpipes : s'.pipes = ((s.readPipe x.p b.row).storeRow x.p b.row).pipes)
      (hstored : s'.cParallel = ((s.readPipe x.p b.row).storeRow x.p b.row).cParallel)
      (hparent : s'.parent.steps x.m = s.parent.steps x.m + 1) :
      Move x s (some b) jobs started (.read b.row) s' none jobs started
  | refork {s' : State} {before after : List Job} {b : Job} {started : ℕ}
      (hstatus : s.statusId = .signaled)
      (hchildren : s'.children =
        s.children ++ [{ row := b.row, pc := .simulateCrash, waited := false }])
      (hpipes : s'.pipes = s.pipes) (hstored : s'.cParallel = s.cParallel)
      (hparent : s'.parent.steps x.m = s.parent.steps x.m + 1) :
      Move x s (some b) (before ++ after) started (.fork s.children.length b.row) s' none
        (before ++ ⟨s.children.length, b.row⟩ :: after) started

/-- The steps of the parent, seen from its jobs. -/
lemma ParentStep.move (hp : Phase x s failed hand todo started)
    (hj : Rows x holds read s hand (failed ++ todo) started) (hs : ParentStep x s e s') :
    ∃ failed' hand' todo' started', Phase x s' failed' hand' todo' started' ∧
      Move x s hand (failed ++ todo) started e s' hand' (failed' ++ todo') started' := by
  cases hs with
  | @fork i hpc hi =>
    obtain ⟨rfl, rfl, rfl, hslots, hlen, hfail, hend, hleft⟩ := hp.atFork hpc
    refine ⟨[], none, todo ++ [Job.mk s.children.length started], started + 1,
      .fork rfl hi (hslots.fork hlen) (by simp [hlen]) hfail hend hleft, ?_⟩
    exact .fork rfl rfl rfl (by rw [hpc]; rfl)
  | forked hpc =>
    obtain ⟨rfl, rfl, rfl, hslots, hlen, hfail, hend, hleft⟩ := hp.atFork hpc
    refine ⟨[], none, todo, x.m, .loop rfl hslots hfail ?_ ?_ fun _ => rfl,
      .idle rfl rfl rfl (by rw [hpc]; rfl)⟩
    · simp only [hend, hlen]
      omega
    · simp only [hleft, hlen, List.length_nil]
      omega
  | finish hpc hleft =>
    cases hp with
    | @loop failed todo _ hslots hfail hend hleft' hnil =>
      obtain rfl : failed = [] := List.eq_nil_of_length_eq_zero (by omega)
      obtain rfl : todo = [] := List.eq_nil_of_length_eq_zero (by omega)
      exact ⟨[], none, [], x.m, .done rfl, .idle rfl rfl rfl (by rw [hpc]; rfl)⟩
    | _ hpc' =>
      rw [hpc] at hpc'
      cases hpc'
  | waitpid hpc hleft hc hw hend =>
    obtain ⟨rest, rfl, rfl, rfl, hslots, hfail, hendIndex, hleft'⟩ := hp.current hpc hleft
    refine ⟨failed, some (s.job s.j), rest, x.m, .handle rfl ?_ hslots.le hfail hendIndex hleft',
      .waitpid hc hw hend rfl rfl rfl rfl hpc rfl⟩
    refine ⟨Nat.le_succ_of_le hslots.le, hslots.failed, fun i b hb => ?_⟩
    have := hslots.todo (i + 1) b hb
    rwa [← Nat.add_assoc, Nat.add_right_comm] at this
  | waitpidFails hpc hleft hc =>
    -- there is always a child to wait for
    obtain ⟨rest, rfl, rfl, rfl, -⟩ := hp.current hpc hleft
    obtain ⟨c, hc', -, hw⟩ := hj.live (s.job s.j) (by simp)
    rw [hc c hc'] at hw
    cases hw
  | read hpc hstatus hdata =>
    obtain ⟨rfl, rfl, hslots, hle, hfail, hend, hleft⟩ := hp.atHandle hpc
    -- the loop index moves on, or wraps around to the failed jobs
    obtain ⟨failed', todo', happ, hp'⟩ := Phase.nextIteration (x := x)
      (s := { (s.readPipe x.p (s.pidToPipe s.j)).storeRow x.p (s.pidToPipe s.j) with
        procLeft := s.procLeft - 1 }) hslots hfail hend (by simp only [hleft]; omega)
    obtain ⟨j, endIndex, failP, hframe⟩ := nextIteration_frame
      { (s.readPipe x.p (s.pidToPipe s.j)).storeRow x.p (s.pidToPipe s.j) with
        procLeft := s.procLeft - 1 }
    refine ⟨failed', none, todo', x.m, hp', ?_⟩
    rw [happ, hframe]
    exact .read hstatus rfl rfl rfl (by rw [hpc]; rfl)
  | refork hpc hstatus =>
    obtain ⟨rfl, rfl, hslots, hle, hfail, hend, hleft⟩ := hp.atHandle hpc
    have hslots' := hslots.refork hle (s.pidToPipe s.j)
    rw [← hfail] at hslots'
    have hlen : (failed ++ [Job.mk s.children.length (s.pidToPipe s.j)]).length =
        failed.length + 1 := List.length_append
    obtain ⟨failed', todo', happ, hp'⟩ := Phase.nextIteration (x := x)
      (s := { s.forkChild s.failP (s.pidToPipe s.j) with failP := s.failP + 1 }) hslots'
      (by simp only [hfail, hlen]) hend (by rw [hlen]; push_cast; exact hleft.trans (by ring))
    obtain ⟨j, endIndex, failP, hframe⟩ := nextIteration_frame
      { s.forkChild s.failP (s.pidToPipe s.j) with failP := s.failP + 1 }
    refine ⟨failed', none, todo', x.m, hp', ?_⟩
    rw [happ, hframe, List.append_assoc]
    exact .refork hstatus rfl rfl rfl (by rw [hpc]; rfl)

/-- Every step of the parent keeps the jobs. -/
lemma Rows.move {hand' : Option Job} {jobs' : List Job} (hk : Kept x holds)
    (hm : Move x s hand jobs started e s' hand' jobs' started')
    (hj : Rows x holds read s hand jobs started) :
    Rows x holds (read ++ reads [e]) s' hand' jobs' started' := by
  cases hm with
  | fork hchildren hpipes hstored =>
    rw [show reads [Event.fork s.children.length started] = [] from rfl, List.append_nil]
    have hj' : Rows x holds read s none (jobs ++ []) started := by
      rw [List.append_nil]
      exact hj
    refine hj'.spawn hchildren (fun b hb => ?_) ?_ hstored ?_
    · rw [List.append_nil] at hb
      rw [hpipes]
      exact Function.update_of_ne (hj.row_lt hb).ne ..
    · rw [hpipes, Function.update_self]
      exact hk.empty started
    · rw [List.range_succ, List.map_append, ← List.append_assoc]
      exact hj.rows.append_right _
  | idle hchildren hpipes hstored =>
    rw [show reads [Event.silent] = [] from rfl, List.append_nil]
    exact hj.frame hchildren hpipes hstored
  | @waitpid _ _ _ b _ _ _ hc hw hend hchildren hstatus hpipes hstored =>
    rw [show reads [Event.waitpid b.pid] = [] from rfl, List.append_nil]
    exact hj.waitpid hc hend hchildren hstatus hpipes hstored
  | read hstatus hchildren hpipes hstored => exact hj.readRow hk hstatus hchildren hpipes hstored
  | @refork _ _ _ b _ hstatus hchildren hpipes hstored =>
    rw [show reads [Event.fork s.children.length b.row] = [] from rfl, List.append_nil]
    have hpipe := hj.inHand b rfl
    rw [hstatus] at hpipe
    refine hj.spawn hchildren (fun _ _ => by rw [hpipes]) (by rw [hpipes]; exact hpipe) hstored ?_
    refine List.Perm.trans ?_ hj.rows
    exact List.Perm.append_left _ (List.perm_middle.map Job.row)

lemma WaitedEnded.move {hand' : Option Job} {jobs' : List Job}
    (hm : Move x s hand jobs started e s' hand' jobs' started') (hn : WaitedEnded s) :
    WaitedEnded s' := by
  intro c' hc' hw'
  cases hm with
  | fork hchildren =>
    rw [hchildren, List.mem_append, List.mem_singleton] at hc'
    rcases hc' with hc' | rfl
    · exact hn c' hc' hw'
    · cases hw'
  | idle hchildren =>
    rw [hchildren] at hc'
    exact hn c' hc' hw'
  | waitpid hc hw hend hchildren =>
    rw [hchildren] at hc'
    rcases List.mem_or_eq_of_mem_set hc' with hc' | rfl
    · exact hn c' hc' hw'
    · exact ⟨_, hend⟩
  | read _ hchildren =>
    rw [hchildren] at hc'
    exact hn c' hc' hw'
  | refork _ hchildren =>
    rw [hchildren, List.mem_append, List.mem_singleton] at hc'
    rcases hc' with hc' | rfl
    · exact hn c' hc' hw'
    · cases hw'

end Parent

end OsProjects.MatMul
