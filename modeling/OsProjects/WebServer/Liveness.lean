import OsProjects.Library.Fair
import OsProjects.WebServer.Delivery

/-!
# Every connection is processed

Between two connections taken the threads have only so much to do, apart from the
main thread that looks for workers to replace.  With a worker, weakly fair threads
and clients that keep none of them forever, the next connection is therefore
taken, and then processed, also when workers crash.
-/

namespace OsProjects.WebServer
open Tally Fair

variable {n : ℕ} {CRASH : ℤ}

inductive Thread (n : ℕ)
  | listener
  | worker (w : Fin n)
  | main

def ThreadStep (CRASH : ℤ) : Thread n → Server n → Event → Server n → Prop
  | .listener, s, e, s' => ListenerStep s e s'
  | .worker w, s, e, s' => WorkerStep CRASH w s e s'
  | .main, s, e, s' => e = .silent ∧ MainStep s s'

/-- The server, with what has become of the connections so far. -/
abbrev Observed (n : ℕ) := History × Server n

/-- A step of the thread `t`. -/
def ObservedStep (CRASH : ℤ) (t : Thread n) (o o' : Observed n) : Prop :=
  ∃ e, ThreadStep CRASH t o.2 e o'.2 ∧ o'.1 = o.1.record e

/-- A worker in `process` may have to wait for its client. -/
def Processing (t : Thread n) (o : Observed n) : Prop :=
  ∃ w ret, t = .worker w ∧ o.2.worker w = .process ret

/-- The thread can take a step.  A listener in `accept` may have to wait for a client. -/
def Enabled (CRASH : ℤ) (t : Thread n) (o : Observed n) : Prop :=
  (∃ o', ObservedStep CRASH t o o') ∧ (t = .listener → o.2.listener ≠ .accept)

/-- The thread can take a step and waits for no client. -/
def Ready (CRASH : ℤ) (t : Thread n) (o : Observed n) : Prop :=
  Enabled CRASH t o ∧ ¬ Processing t o

/-- The main thread has created the workers below `i`, or all of them. -/
structure Manned (main : MainPC) (worker : Fin n → WorkerPC) : Prop where
  create : ∀ i, main = .create i → i ≤ n ∧ ∀ w : Fin n, w < i → worker w ≠ .absent
  watch : ∀ i, main = .tryjoin i ∨ main = .respawn i → i < n ∧ ∀ w, worker w ≠ .absent

structure Sound (o : Observed n) : Prop where
  queue : QueueInv o.1 o.2
  manned : Manned o.2.main o.2.worker

variable {o o' : Observed n} {t : Thread n} {h : History} {s s' : Server n} {e : Event} {w : Fin n}

/-! ## The invariant -/

lemma Manned.worker {main : MainPC} {worker : Fin n → WorkerPC} {pc : WorkerPC}
    (hm : Manned main worker) (hpc : pc ≠ .absent) :
    Manned main (Function.update worker w pc) := by
  have hne : ∀ v, worker v ≠ .absent → Function.update worker w pc v ≠ .absent := by
    intro v hv
    by_cases hvw : v = w
    · rw [hvw, Function.update_self]
      exact hpc
    · rwa [Function.update_of_ne hvw]
  constructor
  · intro i hi
    exact ⟨(hm.create i hi).1, fun v hv => hne v ((hm.create i hi).2 v hv)⟩
  · intro i hi
    exact ⟨(hm.watch i hi).1, fun v => hne v ((hm.watch i hi).2 v)⟩

lemma WorkerStep.manned (hm : Manned s.main s.worker) (hs : WorkerStep CRASH w s e s') :
    Manned s'.main s'.worker := by
  cases hs <;> exact hm.worker (by simp)

lemma manned_create {i : ℕ} {worker : Fin n → WorkerPC} (hi : i ≤ n)
    (h : ∀ w : Fin n, w < i → worker w ≠ .absent) : Manned (.create i) worker := by
  constructor
  · intro j hj
    obtain rfl := MainPC.create.inj hj
    exact ⟨hi, h⟩
  · intro j hj
    rcases hj with hj | hj <;> cases hj

lemma manned_watch {main : MainPC} {i : ℕ} {worker : Fin n → WorkerPC}
    (hmain : main = .tryjoin i ∨ main = .respawn i) (hi : i < n) (h : ∀ w, worker w ≠ .absent) :
    Manned main worker := by
  constructor
  · rintro j rfl
    rcases hmain with hmain | hmain <;> cases hmain
  · rintro j (rfl | rfl)
    · rcases hmain with hmain | hmain <;> cases hmain
      exact ⟨hi, h⟩
    · rcases hmain with hmain | hmain <;> cases hmain
      exact ⟨hi, h⟩

lemma MainStep.manned (hn : 0 < n) (hm : Manned s.main s.worker) (hs : MainStep s s') :
    Manned s'.main s'.worker := by
  cases hs with
  | @create i hpc hi =>
    refine manned_create hi fun w hw => ?_
    by_cases hwi : w = ⟨i, hi⟩
    · simp [Server.goto, hwi]
    · have hne : (w : ℕ) ≠ i := fun h => hwi (Fin.ext h)
      have hlt : (w : ℕ) < i := by omega
      simpa [Server.goto, Function.update_of_ne hwi] using (hm.create i hpc).2 w hlt
  | created hpc => exact manned_watch (Or.inl rfl) hn fun w => (hm.create n hpc).2 w w.isLt
  | @tryjoinFails i hpc hi hw =>
    exact manned_watch (Or.inl rfl) (Nat.mod_lt _ hn) (hm.watch i (Or.inl hpc)).2
  | @tryjoin i hpc hi hw =>
    exact manned_watch (Or.inr rfl) hi (hm.watch i (Or.inl hpc)).2
  | @respawn i hpc hi =>
    have hwait : WorkerPC.waitFull ≠ .absent := by simp
    have hm' := hm.worker (w := ⟨i, hi⟩) hwait
    exact manned_watch (Or.inl rfl) (Nat.mod_lt _ hn) (hm'.watch i (Or.inr hpc)).2

lemma ListenerStep.frame (hs : ListenerStep s e s') : s'.main = s.main ∧ s'.worker = s.worker := by
  cases hs <;> exact ⟨rfl, rfl⟩

lemma Sound.step (hn : 0 < n) (ho : Sound o) (hs : ObservedStep CRASH t o o') : Sound o' := by
  obtain ⟨e, hs, hrecord⟩ := hs
  cases t with
  | listener =>
    refine ⟨hrecord ▸ ListenerStep.inv ho.queue hs, ?_⟩
    rw [(ListenerStep.frame hs).1, (ListenerStep.frame hs).2]
    exact ho.manned
  | worker w => exact ⟨hrecord ▸ WorkerStep.inv ho.queue hs, WorkerStep.manned ho.manned hs⟩
  | main =>
    obtain ⟨rfl, hs⟩ := hs
    exact ⟨hrecord ▸ MainStep.inv ho.queue hs, MainStep.manned hn ho.manned hs⟩

lemma sound_start (n : ℕ) : Sound (history [], start n) :=
  ⟨queueInv_start n, manned_create (Nat.zero_le n) fun _ hw => absurd hw (Nat.not_lt_zero _)⟩

/-! ## The rank -/

/-- The steps to the next `sem_wait`, where the request that is announced counts for four. -/
def ListenerPC.rank : ListenerPC → ℕ
  | .waitEmpty _ => 0
  | .stopped => 0
  | .accept => 1
  | .postFull => 6
  | .storeHead _ => 7
  | .reloadHead => 8
  | .storeRequest _ _ => 9
  | .loadHead _ => 10

/-- The steps to the next `sem_wait`, where the slot that is given back counts for twelve. -/
def WorkerPC.rank : WorkerPC → ℕ
  | .waitFull => 0
  | .loadRequest _ => 1
  | .loadTail => 2
  | .lock => 3
  | .absent => 2
  | .exited => 2
  | .process _ => 3
  | .postEmpty _ => 16
  | .unlock _ => 17
  | .storeTail _ _ => 18
  | .reloadTail _ => 19

def MainPC.rank : MainPC → ℕ
  | .create _ => 2
  | .tryjoin _ => 1
  | .respawn _ => 0

def Server.rank (s : Server n) : ℕ :=
  s.listener.rank + 12 * s.semEmpty + 4 * s.semFull + ∑ w, (s.worker w).rank + s.main.rank

/-- The main thread finds the worker that it asks for running. -/
def Idle (t : Thread n) (s s' : Server n) : Prop :=
  t = .main ∧ (∃ i, ∃ hi : i < n, s.main = .tryjoin i ∧ s.worker ⟨i, hi⟩ ≠ .exited) ∧
    ∃ j, s' = { s with main := .tryjoin j }

lemma ListenerStep.rank_lt (hs : ListenerStep s e s') : s'.rank < s.rank := by
  cases hs with
  | accept hpc hret => simp only [Server.rank, hpc, ListenerPC.rank]; omega
  | acceptFails hpc => simp only [Server.rank, hpc, ListenerPC.rank]; omega
  | waitEmpty hpc hsem => simp only [Server.rank, hpc, ListenerPC.rank]; omega
  | loadHead hpc => simp only [Server.rank, hpc, ListenerPC.rank]; omega
  | storeRequest hpc => simp only [Server.rank, hpc, ListenerPC.rank]; omega
  | reloadHead hpc => simp only [Server.rank, hpc, ListenerPC.rank]; omega
  | storeHead hpc => simp only [Server.rank, hpc, ListenerPC.rank]; omega
  | postFull hpc => simp only [Server.rank, hpc, ListenerPC.rank]; omega

/-- What a worker brings down, with the permits that it takes or gives. -/
lemma rank_worker {pc : WorkerPC} {semEmpty semFull tail : ℕ} {mutex : Option (Fin n)}
    (h : pc.rank + 12 * semEmpty + 4 * semFull <
      (s.worker w).rank + 12 * s.semEmpty + 4 * s.semFull) :
    ({ s with semEmpty := semEmpty, semFull := semFull, mutex := mutex, tail := tail }.goto w
      pc).rank < s.rank := by
  have hsum := sum_update WorkerPC.rank s.worker w pc
  simp only [Server.rank, Server.goto]
  omega

/-- A worker brings the rank down, or takes a request. -/
lemma WorkerStep.rank_lt (hs : WorkerStep CRASH w s e s') :
    (∃ slot, s.worker w = .loadRequest slot ∧ e = .take slot (s.request slot) ∧
      s'.worker w = .reloadTail (s.request slot)) ∨ e = .silent ∧ s'.rank < s.rank := by
  cases hs with
  | @loadRequest slot hpc => exact Or.inl ⟨slot, hpc, rfl, by simp [Server.goto]⟩
  | waitFull hpc hsem =>
    exact Or.inr ⟨rfl, rank_worker (by rw [hpc]; simp only [WorkerPC.rank]; omega)⟩
  | postEmpty hpc =>
    exact Or.inr ⟨rfl, rank_worker (by rw [hpc]; simp only [WorkerPC.rank]; omega)⟩
  | _ hpc => exact Or.inr ⟨rfl, rank_worker (by rw [hpc]; simp [WorkerPC.rank])⟩

/-- A worker that starts brings the rank down by two. -/
lemma sum_spawn (hw : s.worker w = .absent ∨ s.worker w = .exited) :
    ∑ v, (Function.update s.worker w .waitFull v).rank + 2 = ∑ v, (s.worker v).rank := by
  have hsum := sum_update WorkerPC.rank s.worker w .waitFull
  have htwo : (s.worker w).rank = 2 := by
    rcases hw with hw | hw <;> rw [hw] <;> rfl
  rw [htwo] at hsum
  exact hsum

lemma MainStep.rank_lt (hq : Roster s.main s.worker) (hs : MainStep s s') :
    s'.rank < s.rank ∨ Idle .main s s' := by
  cases hs with
  | @create i hpc hi =>
    have hsum := sum_spawn (Or.inl (hq.absent i hpc ⟨i, hi⟩ le_rfl))
    left
    simp only [Server.rank, Server.goto, hpc, MainPC.rank]
    omega
  | created hpc =>
    left
    simp only [Server.rank, hpc, MainPC.rank]
    omega
  | @tryjoinFails i hpc hi hw => exact Or.inr ⟨rfl, ⟨i, hi, hpc, hw⟩, _, rfl⟩
  | tryjoin hpc hi hw =>
    left
    simp only [Server.rank, hpc, MainPC.rank]
    omega
  | @respawn i hpc hi =>
    have hsum := sum_spawn (Or.inr (hq.exited i hpc ⟨i, hi⟩ rfl))
    left
    simp only [Server.rank, Server.goto, hpc, MainPC.rank]
    omega

/-! ## Some thread helps -/

/-- The main thread helps when no worker is left, any other thread always. -/
def Helpful : Thread n → Observed n → Prop
  | .main, o => ∀ w, o.2.worker w = .absent ∨ o.2.worker w = .exited
  | _, _ => True

lemma enabled_listener (hs : ListenerStep o.2 e s') (hpc : o.2.listener ≠ .accept) :
    Enabled CRASH .listener o := ⟨⟨(o.1.record e, s'), e, hs, rfl⟩, fun _ => hpc⟩

lemma enabled_worker (hs : WorkerStep CRASH w o.2 e s') : Enabled CRASH (.worker w) o :=
  ⟨⟨(o.1.record e, s'), e, hs, rfl⟩, nofun⟩

lemma enabled_main (hs : MainStep o.2 s') : Enabled CRASH .main o :=
  ⟨⟨(o.1.record .silent, s'), .silent, ⟨rfl, hs⟩, rfl⟩, nofun⟩

/-- A worker that has got a permit goes on, unless it waits for the mutex. -/
lemma exists_workerStep (CRASH : ℤ) (hpc : (s.worker w).inQueue = true)
    (hlock : s.worker w ≠ .lock) :
    ∃ e s', WorkerStep CRASH w s e s' := by
  cases h : s.worker w with
  | lock => exact absurd h hlock
  | loadTail => exact ⟨_, _, .loadTail h⟩
  | loadRequest slot => exact ⟨_, _, .loadRequest h⟩
  | reloadTail ret => exact ⟨_, _, .reloadTail h⟩
  | storeTail ret value => exact ⟨_, _, .storeTail h⟩
  | unlock ret => exact ⟨_, _, .unlock h⟩
  | postEmpty ret => exact ⟨_, _, .postEmpty h⟩
  | _ => rw [h] at hpc; cases hpc

lemma exists_listenerStep (hpc : s.listener.inQueue = true) : ∃ e s', ListenerStep s e s' := by
  cases h : s.listener with
  | loadHead ret => exact ⟨_, _, .loadHead h⟩
  | storeRequest ret slot => exact ⟨_, _, .storeRequest h⟩
  | reloadHead => exact ⟨_, _, .reloadHead h⟩
  | storeHead value => exact ⟨_, _, .storeHead h⟩
  | postFull => exact ⟨_, _, .postFull h⟩
  | _ => rw [h] at hpc; cases hpc

/-- Without a running worker the main thread is about to start one, or about to get there. -/
lemma exists_mainStep (hm : Manned s.main s.worker) : ∃ s', MainStep s s' := by
  cases h : s.main with
  | create i =>
    rcases Nat.lt_or_eq_of_le (hm.create i h).1 with hlt | rfl
    · exact ⟨_, .create h hlt⟩
    · exact ⟨_, .created h⟩
  | tryjoin i =>
    have hi := (hm.watch i (Or.inl h)).1
    by_cases hw : s.worker ⟨i, hi⟩ = .exited
    · exact ⟨_, .tryjoin h hi hw⟩
    · exact ⟨_, .tryjoinFails h hi hw⟩
  | respawn i => exact ⟨_, .respawn h (hm.watch i (Or.inr h)).1⟩

/-- With the mutex taken its owner can go on, and otherwise any worker that has a permit. -/
lemma progress_busy (ho : Sound o) (hw : (o.2.worker w).inQueue = true) :
    ∃ t, Helpful t o ∧ Enabled CRASH t o := by
  by_cases hlock : o.2.worker w = .lock
  · cases hmutex : o.2.mutex with
    | none => exact ⟨.worker w, trivial, enabled_worker (.lock hlock hmutex)⟩
    | some v =>
      have hv := (ho.queue.critical.owner v).mp hmutex
      have hqueue : (o.2.worker v).inQueue = true := by
        cases h : o.2.worker v <;> rw [h] at hv <;> first | rfl | cases hv
      have hne : o.2.worker v ≠ .lock := by
        intro h
        rw [h] at hv
        cases hv
      obtain ⟨e, s', hs⟩ := exists_workerStep CRASH hqueue hne
      exact ⟨.worker v, trivial, enabled_worker hs⟩
  · obtain ⟨e, s', hs⟩ := exists_workerStep CRASH hw hlock
    exact ⟨.worker w, trivial, enabled_worker hs⟩

/-- A request that has been announced finds a worker, or the main thread starts one. -/
lemma progress_announced (ho : Sound o) (hidle : ∀ w, (o.2.worker w).inQueue = false)
    (hfull : 0 < o.2.semFull) : ∃ t, Helpful t o ∧ Enabled CRASH t o := by
  by_cases hwait : ∃ w, o.2.worker w = .waitFull
  · obtain ⟨w, hw⟩ := hwait
    exact ⟨.worker w, trivial, enabled_worker (.waitFull hw hfull)⟩
  by_cases hprocess : ∃ w ret, o.2.worker w = .process ret
  · obtain ⟨w, ret, hw⟩ := hprocess
    exact ⟨.worker w, trivial, enabled_worker (.processReturns hw)⟩
  have hdead : ∀ w, o.2.worker w = .absent ∨ o.2.worker w = .exited := by
    intro w
    have hw := hidle w
    cases h : o.2.worker w with
    | absent => exact Or.inl rfl
    | exited => exact Or.inr rfl
    | waitFull => exact absurd ⟨w, h⟩ hwait
    | process ret => exact absurd ⟨w, ret, h⟩ hprocess
    | _ => rw [h] at hw; cases hw
  obtain ⟨s', hs⟩ := exists_mainStep ho.manned
  exact ⟨.main, hdead, enabled_main hs⟩

/-- As long as a connection is not taken, some thread that helps is ready. -/
lemma progress (ho : Sound o) (hk : o.1.taken.length < o.1.accepted.length) :
    ∃ t, Helpful t o ∧ Enabled CRASH t o := by
  by_cases hbusy : ∃ w, (o.2.worker w).inQueue = true
  · exact progress_busy ho hbusy.choose_spec
  have hidle : ∀ w, (o.2.worker w).inQueue = false := fun w =>
    Bool.eq_false_iff.mpr fun hw => hbusy ⟨w, hw⟩
  by_cases hlistener : o.2.listener.inQueue = true
  · obtain ⟨e, s', hs⟩ := exists_listenerStep hlistener
    refine ⟨.listener, trivial, enabled_listener hs fun h => ?_⟩
    rw [h] at hlistener
    cases hlistener
  by_cases hfull : 0 < o.2.semFull
  · exact progress_announced ho hidle hfull
  -- the queue is empty, so the listener holds the connection and waits for a free slot
  have hpermits := ho.queue.permits
  have hqueued := ho.queue.queued
  have haccepted := congrArg List.length ho.queue.accepted
  rw [tally_eq_zero hidle] at hpermits
  have hreserved : ∀ w, (o.2.worker w).reserved = false := by
    intro w
    have hw := hidle w
    cases h : o.2.worker w <;> rw [h] at hw <;> first | rfl | cases hw
  rw [tally_eq_zero hreserved] at hqueued
  rw [List.length_append] at haccepted
  cases h : o.2.listener with
  | waitEmpty ret =>
    have hempty : 0 < o.2.semEmpty := by
      rw [h] at hpermits
      simp only [ListenerPC.inQueue, Bool.toNat_false, maxRequest] at hpermits
      omega
    refine ⟨.listener, trivial, enabled_listener (.waitEmpty h hempty) fun h' => ?_⟩
    rw [h] at h'
    cases h'
  | accept =>
    rw [h] at hqueued haccepted
    simp only [ListenerPC.stored, ListenerPC.held, Bool.toNat_false, List.length_nil]
      at hqueued haccepted
    omega
  | stopped =>
    rw [h] at hqueued haccepted
    simp only [ListenerPC.stored, ListenerPC.held, Bool.toNat_false, List.length_nil]
      at hqueued haccepted
    omega
  | _ => exact absurd (by rw [h]; rfl) hlistener

/-! ## Clients that do not wait forever -/

/-- Another thread leaves a worker as it is, or starts it. -/
lemma ObservedStep.other (ho : Sound o) (hs : ObservedStep CRASH t o o') (ht : t ≠ .worker w) :
    o'.2.worker w = o.2.worker w ∨
      (o.2.worker w = .absent ∨ o.2.worker w = .exited) ∧ o'.2.worker w = .waitFull := by
  obtain ⟨e, hs, -⟩ := hs
  cases t with
  | listener => exact Or.inl (by rw [(ListenerStep.frame hs).2])
  | worker v =>
    have hwv : w ≠ v := fun h => ht (h ▸ rfl)
    generalize o'.2 = s' at hs ⊢
    left
    cases hs <;> exact Function.update_of_ne hwv _ _
  | main =>
    obtain ⟨-, hs⟩ := hs
    generalize o'.2 = s' at hs ⊢
    cases hs with
    | @create i hpc hi =>
      by_cases hw : w = ⟨i, hi⟩
      · subst hw
        exact Or.inr ⟨Or.inl (ho.queue.roster.absent i hpc _ le_rfl), Function.update_self _ _ _⟩
      · exact Or.inl (Function.update_of_ne hw _ _)
    | @respawn i hpc hi =>
      by_cases hw : w = ⟨i, hi⟩
      · subst hw
        exact Or.inr ⟨Or.inr (ho.queue.roster.exited i hpc _ rfl), Function.update_self _ _ _⟩
      · exact Or.inl (Function.update_of_ne hw _ _)
    | _ => exact Or.inl rfl

variable {r : Run (ObservedStep (n := n) CRASH)}

/-- Where no call of `process` lasts forever, a worker that can go on is as fair in `process` as
everywhere. -/
lemma weaklyFair_enabled (hsound : ∀ j, Sound (r.state j)) (hfair : r.WeaklyFair (Ready CRASH))
    (hclients : r.WeaklyFair Processing) : r.WeaklyFair (Enabled CRASH) := by
  intro t i henabled
  by_cases hprocess : ∀ j, i ≤ j → Processing t (r.state j)
  · exact hclients t i hprocess
  push Not at hprocess
  obtain ⟨j, hij, hj⟩ := hprocess
  by_contra hno
  have hother : ∀ m, i ≤ m → r.thread m ≠ t := fun m him h => hno ⟨m, him, h⟩
  -- without a step of its own the thread does not get into `process` again
  have hstay : ∀ m, j ≤ m → ¬ Processing t (r.state m) := by
    intro m hjm
    induction m, hjm using Nat.le_induction with
    | base => exact hj
    | succ m hjm ih =>
      rintro ⟨w, ret, rfl, hw⟩
      rcases (r.step m).other (hsound m) (hother m (hij.trans hjm)) with h | ⟨-, h⟩
      · exact ih ⟨w, ret, rfl, h.symm.trans hw⟩
      · rw [hw] at h
        cases h
  obtain ⟨m, hjm, hm⟩ := hfair t j fun m hjm => ⟨henabled m (hij.trans hjm), hstay m hjm⟩
  exact hother m (hij.trans hjm) hm

/-! ## The next connection is taken -/

lemma ListenerStep.with_main (hs : ListenerStep s e s') (main : MainPC) :
    ListenerStep { s with main := main } e { s' with main := main } := by
  cases hs <;> constructor <;> assumption

lemma WorkerStep.with_main (hs : WorkerStep CRASH w s e s') (main : MainPC) :
    WorkerStep CRASH w { s with main := main } e { s' with main := main } := by
  cases hs <;> constructor <;> assumption

lemma ListenerStep.taken (hs : ListenerStep s e s') (h : History) :
    (h.record e).taken = h.taken := by
  cases hs <;> rfl

/-- A step takes a request, brings the rank down or is idle. -/
lemma ObservedStep.outcome (ho : Sound o) (hs : ObservedStep CRASH t o o') :
    (∃ w fd, t = .worker w ∧ o'.1.taken = o.1.taken ++ [fd] ∧
      o'.2.worker w = .reloadTail fd) ∨
      o'.1.taken = o.1.taken ∧
        (o'.2.rank < o.2.rank ∨ o'.1 = o.1 ∧ Idle t o.2 o'.2) := by
  obtain ⟨e, hs, hrecord⟩ := hs
  cases t with
  | listener =>
    refine Or.inr ⟨?_, Or.inl (ListenerStep.rank_lt hs)⟩
    rw [hrecord]
    exact ListenerStep.taken hs o.1
  | worker w =>
    rcases WorkerStep.rank_lt hs with ⟨slot, -, rfl, hpc⟩ | ⟨rfl, hlt⟩
    · refine Or.inl ⟨w, o.2.request slot, rfl, ?_, hpc⟩
      rw [hrecord]
      rfl
    · exact Or.inr ⟨by rw [hrecord]; rfl, Or.inl hlt⟩
  | main =>
    obtain ⟨rfl, hs⟩ := hs
    refine Or.inr ⟨by rw [hrecord]; rfl, ?_⟩
    rcases MainStep.rank_lt ho.queue.roster hs with hlt | hidle
    · exact Or.inl hlt
    · exact Or.inr ⟨hrecord, hidle⟩

lemma Idle.rank_eq (h : Idle t s s') : s'.rank = s.rank := by
  obtain ⟨-, ⟨i, hi, hpc, -⟩, j, rfl⟩ := h
  simp only [Server.rank, hpc, MainPC.rank]

/-- The threads that help are still there after an idle step, and it is not one of theirs. -/
lemma Idle.helpful {u : Thread n} (ho : Sound o) (h : Idle t o.2 o'.2)
    (hu : Helpful u o) (hr : Enabled CRASH u o) : u ≠ t ∧ Helpful u o' ∧ Enabled CRASH u o' := by
  obtain ⟨rfl, ⟨i, hi, hpc, hw⟩, j, hs'⟩ := h
  obtain ⟨⟨o₁, e, hs, -⟩, haccept⟩ := hr
  cases u with
  | listener =>
    have hs₁ := ListenerStep.with_main hs (.tryjoin j)
    rw [← hs'] at hs₁
    refine ⟨nofun, trivial, enabled_listener hs₁ ?_⟩
    rw [hs']
    exact haccept rfl
  | worker w =>
    have hs₁ := WorkerStep.with_main hs (.tryjoin j)
    rw [← hs'] at hs₁
    exact ⟨nofun, trivial, enabled_worker hs₁⟩
  | main =>
    -- all workers have been created, so none of them is running
    rcases hu ⟨i, hi⟩ with h | h
    · exact absurd h ((ho.manned.watch i (Or.inl hpc)).2 ⟨i, hi⟩)
    · exact absurd h hw

/-- No step takes back a connection. -/
lemma record_accepted (h : History) (e : Event) : h.accepted <+: (h.record e).accepted := by
  cases e <;> simp [History.record]

lemma eventually_taken (hn : 0 < n) (hfair : r.WeaklyFair (Enabled CRASH)) {i m : ℕ}
    (ho : Sound (r.state i)) (hm : (r.state i).1.taken.length = m)
    (hk : m < (r.state i).1.accepted.length) : ∃ j, i ≤ j ∧ m < (r.state j).1.taken.length := by
  refine r.eventually hfair (fun o => Sound o ∧ o.1.taken.length = m ∧ m < o.1.accepted.length)
    (fun o => m < o.1.taken.length) (fun o => o.2.rank) Helpful ?_ ?_ ?_ ⟨ho, hm, hk⟩
  · rintro t o o' ⟨ho, hm, hk⟩ - hs
    rcases hs.outcome ho with ⟨w, fd, -, htaken, -⟩ | ⟨htaken, -⟩
    · left
      rw [htaken, List.length_append, hm]
      exact Nat.lt_succ_self m
    · obtain ⟨e, -, hrecord⟩ := id hs
      refine Or.inr ⟨ho.step hn hs, by rw [htaken, hm], ?_⟩
      rw [hrecord]
      exact hk.trans_le (record_accepted o.1 e).length_le
  · rintro o ⟨ho, hm, hk⟩ -
    exact progress ho (hm ▸ hk)
  · rintro t o o' ⟨ho, hm, hk⟩ - hs
    rcases hs.outcome ho with ⟨w, fd, -, htaken, -⟩ | ⟨-, hlt | ⟨-, hidle⟩⟩
    · left
      rw [htaken, List.length_append, hm]
      exact Nat.lt_succ_self m
    · exact Or.inr (Or.inl hlt)
    · exact Or.inr (Or.inr ⟨hidle.rank_eq, fun u hu hr => hidle.helpful ho hu hr⟩)

/-- Any number of connections that have been accepted is taken. -/
lemma eventually_all_taken (hn : 0 < n) (hfair : r.WeaklyFair (Enabled CRASH)) {i k : ℕ}
    (ho : Sound (r.state i)) (hk : k ≤ (r.state i).1.accepted.length) :
    ∃ j, i ≤ j ∧ k ≤ (r.state j).1.taken.length := by
  induction k with
  | zero => exact ⟨i, le_rfl, Nat.zero_le _⟩
  | succ k ih =>
    obtain ⟨j, hij, hj⟩ := ih (Nat.le_of_succ_le hk)
    rcases Nat.lt_or_eq_of_le hj with hlt | heq
    · exact ⟨j, hij, hlt⟩
    · have hsound : Sound (r.state j) := r.always (fun _ _ _ h hs => h.step hn hs) hij ho
      have haccepted : k < (r.state j).1.accepted.length :=
        r.always (P := fun o => k < o.1.accepted.length)
          (fun _ o _ h hs => by
            obtain ⟨e, -, hrecord⟩ := hs
            rw [hrecord]
            exact h.trans_le (record_accepted o.1 e).length_le) hij hk
      obtain ⟨l, hjl, hl⟩ := eventually_taken hn hfair hsound heq.symm haccepted
      exact ⟨l, hij.trans hjl, hl⟩

/-! ## A connection that is taken is processed -/

/-- The connection that a worker is about to process. -/
def WorkerPC.carried : WorkerPC → Option ℤ
  | .reloadTail ret | .storeTail ret _ | .unlock ret | .postEmpty ret => some ret
  | _ => none

lemma WorkerStep.carried (hs : WorkerStep CRASH w s e s') {fd : ℤ}
    (hfd : (s.worker w).carried = some fd) :
    s'.worker w = .process fd ∨
      (s'.worker w).carried = some fd ∧ (s'.worker w).rank < (s.worker w).rank := by
  cases hs with
  | reloadTail hpc =>
    rw [hpc] at hfd ⊢
    exact Or.inr (by simpa [Server.goto, WorkerPC.carried, WorkerPC.rank] using hfd)
  | storeTail hpc =>
    rw [hpc] at hfd ⊢
    exact Or.inr (by simpa [Server.goto, WorkerPC.carried, WorkerPC.rank] using hfd)
  | unlock hpc =>
    rw [hpc] at hfd ⊢
    exact Or.inr (by simpa [Server.goto, WorkerPC.carried, WorkerPC.rank] using hfd)
  | postEmpty hpc =>
    rw [hpc] at hfd ⊢
    obtain rfl := Option.some.inj hfd
    exact Or.inl (by simp [Server.goto])
  | _ hpc => rw [hpc] at hfd; cases hfd

lemma carried_running {pc : WorkerPC} {fd : ℤ} (h : pc.carried = some fd) :
    (pc ≠ .absent ∧ pc ≠ .exited) ∧ pc.inQueue = true ∧ pc ≠ .lock := by
  cases pc <;> cases h <;> exact ⟨⟨nofun, nofun⟩, rfl, nofun⟩

lemma eventually_processed (hn : 0 < n) (hfair : r.WeaklyFair (Enabled CRASH)) {i : ℕ} {fd : ℤ}
    (ho : Sound (r.state i)) (hfd : ((r.state i).2.worker w).carried = some fd) :
    ∃ j, i ≤ j ∧ (r.state j).2.worker w = .process fd ∧
      ∀ m, i ≤ m → m < j → ((r.state m).2.worker w).carried = some fd := by
  have hready : ∀ o : Observed n, (o.2.worker w).carried = some fd →
      Enabled CRASH (.worker w) o := by
    intro o h
    obtain ⟨-, hqueue, hlock⟩ := carried_running h
    obtain ⟨e, s', hs⟩ := exists_workerStep CRASH hqueue hlock
    exact enabled_worker hs
  have hstep : ∀ t o o', Sound o → (o.2.worker w).carried = some fd → ObservedStep CRASH t o o' →
      o'.2.worker w = .process fd ∨ (o'.2.worker w).carried = some fd ∧
        ((o'.2.worker w).rank < (o.2.worker w).rank ∨
          o'.2.worker w = o.2.worker w ∧ t ≠ .worker w) := by
    intro t o o' ho h hs
    by_cases ht : t = .worker w
    · obtain ⟨e, hs, -⟩ := hs
      rw [ht] at hs
      rcases WorkerStep.carried hs h with h' | ⟨h', hlt⟩
      · exact Or.inl h'
      · exact Or.inr ⟨h', Or.inl hlt⟩
    · have hrunning := (carried_running h).1
      have hsame := (hs.other ho ht).resolve_right fun h => h.1.elim hrunning.1 hrunning.2
      exact Or.inr ⟨by rw [hsame, h], Or.inr ⟨hsame, ht⟩⟩
  have hinv : ∀ t o o', Sound o ∧ (o.2.worker w).carried = some fd → ¬ o.2.worker w = .process fd →
      ObservedStep CRASH t o o' →
        o'.2.worker w = .process fd ∨ Sound o' ∧ (o'.2.worker w).carried = some fd := by
    rintro t o o' ⟨ho, h⟩ - hs
    exact (hstep t o o' ho h hs).imp id fun h' => ⟨ho.step hn hs, h'.1⟩
  have hgoal := r.eventually hfair (fun o => Sound o ∧ (o.2.worker w).carried = some fd)
    (fun o => o.2.worker w = .process fd) (fun o => (o.2.worker w).rank)
    (fun t _ => t = .worker w) hinv
    (by
      rintro o ⟨-, h⟩ -
      exact ⟨.worker w, rfl, hready o h⟩)
    (by
      rintro t o o' ⟨ho, h⟩ - hs
      rcases hstep t o o' ho h hs with h' | ⟨h', hlt | ⟨hsame, ht⟩⟩
      · exact Or.inl h'
      · exact Or.inr (Or.inl hlt)
      · refine Or.inr (Or.inr ⟨by rw [hsame], ?_⟩)
        rintro u rfl -
        exact ⟨ht.symm, rfl, hready o' h'⟩) ⟨ho, hfd⟩
  obtain ⟨j, hij, hj, hkeep⟩ := r.until_goal hinv ⟨ho, hfd⟩ hgoal
  exact ⟨j, hij, hj, fun m him hm => (hkeep m him hm).2⟩

/-! ## The whole way -/

lemma accepted_mono {i j : ℕ} (hij : i ≤ j) :
    (r.state i).1.accepted <+: (r.state j).1.accepted :=
  r.always (P := fun o => (r.state i).1.accepted <+: o.1.accepted)
    (fun _ _ _ h hs => by
      obtain ⟨e, -, hrecord⟩ := hs
      rw [hrecord]
      exact h.trans (record_accepted _ e)) hij List.prefix_rfl

lemma getElem?_of_prefix {α : Type} {l m : List α} {k : ℕ} {x : α} (h : l <+: m)
    (hx : l[k]? = some x) : m[k]? = some x := by
  obtain ⟨hk, rfl⟩ := List.getElem?_eq_some_iff.mp hx
  exact List.prefix_iff_getElem?.mp h k hk

/-- The connections are taken in the order in which they are accepted. -/
lemma taken_eq_accepted {i j k : ℕ} {fd fd' : ℤ} (ho : Sound (r.state j))
    (htaken : (r.state j).1.taken[k]? = some fd') (hk : (r.state i).1.accepted[k]? = some fd) :
    fd' = fd := by
  have hle : (r.state j).1.taken <+: (r.state j).1.accepted := by
    rw [ho.queue.accepted]
    exact ho.queue.inOrder.trans (List.prefix_append _ _)
  have h₁ := getElem?_of_prefix (hle.trans (accepted_mono (le_max_left j i))) htaken
  have h₂ := getElem?_of_prefix (accepted_mono (le_max_right j i)) hk
  exact Option.some.inj (h₁.symm.trans h₂)

/-- Where more than `k` connections have been taken, some worker has taken the one behind the first
`k` in a step of its own. -/
lemma exists_taking (hsound : ∀ j, Sound (r.state j)) (hnone : (r.state 0).1.taken = [])
    {k : ℕ} (hex : ∃ j, k + 1 ≤ (r.state j).1.taken.length) :
    ∃ w j fd, r.thread j = .worker w ∧ (r.state j).1.taken.length = k ∧
      (r.state (j + 1)).1.taken = (r.state j).1.taken ++ [fd] ∧
      (r.state (j + 1)).2.worker w = .reloadTail fd := by
  -- it is the first step to take so many
  obtain ⟨j, hj, hmin⟩ : ∃ j, k + 1 ≤ (r.state j).1.taken.length ∧
      ∀ j', j' < j → (r.state j').1.taken.length ≤ k := by
    classical
    exact ⟨Nat.find hex, Nat.find_spec hex, fun j' hj' =>
      Nat.le_of_lt_succ (Nat.lt_of_not_le (Nat.find_min hex hj'))⟩
  cases j with
  | zero =>
    rw [hnone] at hj
    cases hj
  | succ j =>
    have hle := hmin j (Nat.lt_succ_self j)
    rcases (r.step j).outcome (hsound j) with ⟨w, fd, hthread, htaken, hpc⟩ | ⟨htaken, -⟩
    · rw [htaken, List.length_append, List.length_singleton] at hj
      exact ⟨w, j, fd, hthread, by omega, htaken, hpc⟩
    · rw [htaken] at hj
      omega

/-- With a worker, weakly fair threads and clients that keep no worker in `process` forever, each
connection that is accepted is taken in its turn, and the worker that takes it carries it to
`process`. -/
theorem connections_processed (hn : 0 < n) (r : Run (ObservedStep (n := n) CRASH))
    (hstart : r.state 0 = (history [], start n)) (hfair : r.WeaklyFair (Ready CRASH))
    (hclients : r.WeaklyFair Processing) {i k : ℕ} {fd : ℤ}
    (hk : (r.state i).1.accepted[k]? = some fd) :
    ∃ w j l, r.thread j = .worker w ∧ (r.state j).1.taken.length = k ∧
      (r.state (j + 1)).1.taken = (r.state j).1.taken ++ [fd] ∧ j < l ∧
      (∀ m, j < m → m < l → ((r.state m).2.worker w).carried = some fd) ∧
      (r.state l).2.worker w = .process fd := by
  have hsound : ∀ j, Sound (r.state j) := fun j =>
    r.always (fun _ _ _ h hs => h.step hn hs) (Nat.zero_le j) (hstart ▸ sound_start n)
  have hfair' : r.WeaklyFair (Enabled CRASH) := weaklyFair_enabled hsound hfair hclients
  have hlen : k + 1 ≤ (r.state i).1.accepted.length := (List.getElem?_eq_some_iff.mp hk).1
  obtain ⟨j₀, -, hj₀⟩ := eventually_all_taken hn hfair' (hsound i) hlen
  have hnone : (r.state 0).1.taken = [] := by
    rw [hstart]
    rfl
  obtain ⟨w, j, fd', hthread, hkj, htaken, hpc⟩ := exists_taking hsound hnone ⟨j₀, hj₀⟩
  have hfd' : (r.state (j + 1)).1.taken[k]? = some fd' := by
    rw [htaken, ← hkj, List.getElem?_concat_length]
  obtain rfl : fd' = fd := taken_eq_accepted (hsound (j + 1)) hfd' hk
  have hcarried : ((r.state (j + 1)).2.worker w).carried = some fd' := by
    rw [hpc]
    rfl
  obtain ⟨l, hjl, hl, hkeep⟩ := eventually_processed hn hfair' (hsound (j + 1)) hcarried
  exact ⟨w, j, l, hthread, hkj, htaken, hjl, hkeep, hl⟩

lemma exists_observedStep (h : History) (hs : ThreadStep CRASH t s e s') :
    ∃ u, ObservedStep CRASH u (h, s) (h.record e, s') := ⟨t, e, hs, rfl⟩

/-- Nothing is left to do but to look for workers to replace. -/
lemma enabled_idle (hlistener : o.2.listener = .accept) (hworker : ∀ w, o.2.worker w = .waitFull)
    (hfull : o.2.semFull = 0) (hr : Enabled CRASH t o) : t = .main := by
  obtain ⟨⟨o', e, hs, -⟩, haccept⟩ := hr
  cases t with
  | listener => exact absurd hlistener (haccept rfl)
  | worker w =>
    have hw := hworker w
    generalize o'.2 = s' at hs
    cases hs with
    | waitFull hpc hsem => omega
    | _ hpc => rw [hw] at hpc; cases hpc
  | main => rfl

/-- One worker, one connection, and then the main thread alone. -/
theorem connections_processed_one :
    ∃ r : Run (ObservedStep (n := 1) 0), ∃ w j l, r.thread j = .worker w ∧
      (r.state (j + 1)).1.taken = (r.state j).1.taken ++ [4] ∧ j < l ∧
      (r.state l).2.worker w = .process 4 := by
  have hrun : Relation.ReflTransGen (fun a b => ∃ u, ObservedStep (n := 1) 0 u a b)
      (history [], start 1) _ :=
    .head (exists_observedStep (t := .main) _ ⟨rfl, .create rfl Nat.zero_lt_one⟩)
      (.head (exists_observedStep (t := .listener) _ (.accept rfl (show (0 : ℤ) ≤ 4 by decide)))
      (.head (exists_observedStep (t := .listener) _ (.waitEmpty rfl (by decide)))
      (.head (exists_observedStep (t := .listener) _ (.loadHead rfl))
      (.head (exists_observedStep (t := .listener) _ (.storeRequest rfl))
      (.head (exists_observedStep (t := .listener) _ (.reloadHead rfl))
      (.head (exists_observedStep (t := .listener) _ (.storeHead rfl))
      (.head (exists_observedStep (t := .listener) _ (.postFull rfl))
      (.head (exists_observedStep (t := .worker 0) _ (.waitFull rfl (by decide)))
      (.head (exists_observedStep (t := .worker 0) _ (.lock rfl rfl))
      (.head (exists_observedStep (t := .worker 0) _ (.loadTail rfl))
      (.head (exists_observedStep (t := .worker 0) _ (.loadRequest rfl))
      (.head (exists_observedStep (t := .worker 0) _ (.reloadTail rfl))
      (.head (exists_observedStep (t := .worker 0) _ (.storeTail rfl))
      (.head (exists_observedStep (t := .worker 0) _ (.unlock rfl))
      (.head (exists_observedStep (t := .worker 0) _ (.postEmpty rfl))
      (.head (exists_observedStep (t := .worker 0) _ (.processReturns rfl))
      (.single (exists_observedStep (t := .main) _ ⟨rfl, .created rfl⟩))))))))))))))))))
  obtain ⟨r, hstart, hfair, i, hi⟩ := exists_loop (R := ObservedStep (n := 1) 0) (t := .main) hrun
    ⟨.silent, ⟨rfl, .tryjoinFails rfl Nat.zero_lt_one nofun⟩, rfl⟩
  have hwaits : ∀ w : Fin 1, (r.state i).2.worker w = .waitFull := by
    intro w
    rw [hi, Subsingleton.elim w 0]
    rfl
  have hready : ∀ u, Ready 0 u (r.state i) → u = .main := fun u hu =>
    enabled_idle (by rw [hi]; rfl) hwaits (by rw [hi]; rfl) hu.1
  have hclients : ∀ u, Processing u (r.state i) → u = .main := by
    rintro u ⟨w, ret, rfl, hw⟩
    rw [hwaits w] at hw
    cases hw
  rw [hi] at hready hclients
  obtain ⟨w, j, l, hj, -, htaken, hjl, -, hl⟩ := connections_processed Nat.zero_lt_one r hstart
    (hfair _ hready) (hfair _ hclients) (i := i) (k := 0) (by rw [hi]; rfl)
  exact ⟨r, w, j, l, hj, htaken, hjl, hl⟩

end OsProjects.WebServer
