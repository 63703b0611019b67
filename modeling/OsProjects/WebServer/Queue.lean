import OsProjects.Library.Tally

/-!
# The threads of the web server: `webserver.c`

The listener, the `n` workers and the main thread take turns in any order.  A
step is one read or write of a shared variable, or one call of a semaphore or
mutex operation.  The label of a step records what it does to a connection.
-/

namespace OsProjects.WebServer

/-- `MAX_REQUEST` -/
def maxRequest : ℕ := 10

/-- What the listener does next, with the values of its locals. -/
inductive ListenerPC
  | accept
  | waitEmpty (ret : ℤ)
  /-- `request[head] = ret`: `head` is read, then the slot is written. -/
  | loadHead (ret : ℤ)
  | storeRequest (ret : ℤ) (slot : ℕ)
  /-- `head = (head + 1) % MAX_REQUEST` -/
  | reloadHead
  | storeHead (value : ℕ)
  | postFull
  | stopped
  deriving DecidableEq

/-- What a worker does next. -/
inductive WorkerPC
  | absent
  | waitFull
  | lock
  /-- `ret = request[tail]`: `tail` is read, then the slot. -/
  | loadTail
  | loadRequest (slot : ℕ)
  /-- `tail = (tail + 1) % MAX_REQUEST` -/
  | reloadTail (ret : ℤ)
  | storeTail (ret : ℤ) (value : ℕ)
  | unlock (ret : ℤ)
  | postEmpty (ret : ℤ)
  | process (ret : ℤ)
  | exited
  deriving DecidableEq

/-- What the main thread does next. -/
inductive MainPC
  | create (i : ℕ)
  | tryjoin (i : ℕ)
  | respawn (i : ℕ)
  deriving DecidableEq

structure Server (n : ℕ) where
  request : ℕ → ℤ
  semFull : ℕ
  semEmpty : ℕ
  mutex : Option (Fin n)
  head : ℕ
  tail : ℕ
  listener : ListenerPC
  worker : Fin n → WorkerPC
  main : MainPC

/-- The server when `multi_threaded_server` has created its listener. -/
def start (n : ℕ) : Server n where
  request := fun _ => 0
  semFull := 0
  semEmpty := maxRequest
  mutex := none
  head := 0
  tail := 0
  listener := .accept
  worker := fun _ => .absent
  main := .create 0

inductive Event
  /-- `accept` returns a connection -/
  | accept (fd : ℤ)
  /-- a slot of `request` is written -/
  | store (slot : ℕ) (fd : ℤ)
  /-- a slot of `request` is read -/
  | take (slot : ℕ) (fd : ℤ)
  | silent
  deriving DecidableEq

variable {n : ℕ}

inductive ListenerStep : Server n → Event → Server n → Prop
  | accept {s : Server n} {ret : ℤ} (hpc : s.listener = .accept) (hret : 0 ≤ ret) :
      ListenerStep s (.accept ret) { s with listener := .waitEmpty ret }
  | acceptFails {s : Server n} (hpc : s.listener = .accept) :
      ListenerStep s .silent { s with listener := .stopped }
  | waitEmpty {s : Server n} {ret : ℤ} (hpc : s.listener = .waitEmpty ret)
      (hsem : 0 < s.semEmpty) :
      ListenerStep s .silent
        { s with semEmpty := s.semEmpty - 1, listener := .loadHead ret }
  | loadHead {s : Server n} {ret : ℤ} (hpc : s.listener = .loadHead ret) :
      ListenerStep s .silent { s with listener := .storeRequest ret s.head }
  | storeRequest {s : Server n} {ret : ℤ} {slot : ℕ} (hpc : s.listener = .storeRequest ret slot) :
      ListenerStep s (.store slot ret)
        { s with request := Function.update s.request slot ret, listener := .reloadHead }
  | reloadHead {s : Server n} (hpc : s.listener = .reloadHead) :
      ListenerStep s .silent { s with listener := .storeHead ((s.head + 1) % maxRequest) }
  | storeHead {s : Server n} {value : ℕ} (hpc : s.listener = .storeHead value) :
      ListenerStep s .silent { s with head := value, listener := .postFull }
  | postFull {s : Server n} (hpc : s.listener = .postFull) :
      ListenerStep s .silent { s with semFull := s.semFull + 1, listener := .accept }

/-- The worker `w` goes to `pc`. -/
def Server.goto (s : Server n) (w : Fin n) (pc : WorkerPC) : Server n :=
  { s with worker := Function.update s.worker w pc }

/-- With `CRASH` positive, `process` may end the thread that calls it. -/
inductive WorkerStep (CRASH : ℤ) (w : Fin n) : Server n → Event → Server n → Prop
  | waitFull {s : Server n} (hpc : s.worker w = .waitFull) (hsem : 0 < s.semFull) :
      WorkerStep CRASH w s .silent ({ s with semFull := s.semFull - 1 }.goto w .lock)
  | lock {s : Server n} (hpc : s.worker w = .lock) (hmutex : s.mutex = none) :
      WorkerStep CRASH w s .silent ({ s with mutex := some w }.goto w .loadTail)
  | loadTail {s : Server n} (hpc : s.worker w = .loadTail) :
      WorkerStep CRASH w s .silent (s.goto w (.loadRequest s.tail))
  | loadRequest {s : Server n} {slot : ℕ} (hpc : s.worker w = .loadRequest slot) :
      WorkerStep CRASH w s (.take slot (s.request slot))
        (s.goto w (.reloadTail (s.request slot)))
  | reloadTail {s : Server n} {ret : ℤ} (hpc : s.worker w = .reloadTail ret) :
      WorkerStep CRASH w s .silent (s.goto w (.storeTail ret ((s.tail + 1) % maxRequest)))
  | storeTail {s : Server n} {ret : ℤ} {value : ℕ} (hpc : s.worker w = .storeTail ret value) :
      WorkerStep CRASH w s .silent ({ s with tail := value }.goto w (.unlock ret))
  | unlock {s : Server n} {ret : ℤ} (hpc : s.worker w = .unlock ret) :
      WorkerStep CRASH w s .silent ({ s with mutex := none }.goto w (.postEmpty ret))
  | postEmpty {s : Server n} {ret : ℤ} (hpc : s.worker w = .postEmpty ret) :
      WorkerStep CRASH w s .silent
        ({ s with semEmpty := s.semEmpty + 1 }.goto w (.process ret))
  | processReturns {s : Server n} {ret : ℤ} (hpc : s.worker w = .process ret) :
      WorkerStep CRASH w s .silent (s.goto w .waitFull)
  | processCrashes {s : Server n} {ret : ℤ} (hpc : s.worker w = .process ret)
      (hcrash : 0 < CRASH) :
      WorkerStep CRASH w s .silent (s.goto w .exited)

/-- The main thread creates the workers, then replaces the ones that have exited. -/
inductive MainStep : Server n → Server n → Prop
  | create {s : Server n} {i : ℕ} (hpc : s.main = .create i) (hi : i < n) :
      MainStep s ({ s with main := .create (i + 1) }.goto ⟨i, hi⟩ .waitFull)
  | created {s : Server n} (hpc : s.main = .create n) :
      MainStep s { s with main := .tryjoin 0 }
  | tryjoinFails {s : Server n} {i : ℕ} (hpc : s.main = .tryjoin i) (hi : i < n)
      (hw : s.worker ⟨i, hi⟩ ≠ .exited) :
      MainStep s { s with main := .tryjoin ((i + 1) % n) }
  | tryjoin {s : Server n} {i : ℕ} (hpc : s.main = .tryjoin i) (hi : i < n)
      (hw : s.worker ⟨i, hi⟩ = .exited) :
      MainStep s { s with main := .respawn i }
  | respawn {s : Server n} {i : ℕ} (hpc : s.main = .respawn i) (hi : i < n) :
      MainStep s ({ s with main := .tryjoin ((i + 1) % n) }.goto ⟨i, hi⟩ .waitFull)

inductive Step (CRASH : ℤ) : Server n → Event → Server n → Prop
  | listener {s s' : Server n} {e : Event} (h : ListenerStep s e s') : Step CRASH s e s'
  | worker {s s' : Server n} {e : Event} (w : Fin n) (h : WorkerStep CRASH w s e s') :
      Step CRASH s e s'
  | main {s s' : Server n} (h : MainStep s s') : Step CRASH s .silent s'

/-- The events of a run, the latest one last. -/
inductive Exec (CRASH : ℤ) : List Event → Server n → Prop
  | start : Exec CRASH [] (start n)
  | step {es : List Event} {e : Event} {s s' : Server n} (hrun : Exec CRASH es s)
      (hstep : Step CRASH s e s') : Exec CRASH (es ++ [e]) s'

/-! ## Histories -/

/-- The connections accepted. -/
def accepted (es : List Event) : List ℤ :=
  es.filterMap fun
    | .accept fd => some fd
    | _ => none

/-- The connections put into the queue. -/
def enqueued (es : List Event) : List ℤ :=
  es.filterMap fun
    | .store _ fd => some fd
    | _ => none

/-- The connections taken out of the queue. -/
def taken (es : List Event) : List ℤ :=
  es.filterMap fun
    | .take _ fd => some fd
    | _ => none

/-- The request in each slot that is stored and not yet taken. -/
def untaken (es : List Event) : ℕ → Option ℤ :=
  es.foldl (fun held e => match e with
    | .store slot fd => Function.update held slot (some fd)
    | .take slot _ => Function.update held slot none
    | _ => held) fun _ => none

/-- The listener is between its `sem_wait` and its `sem_post`. -/
def ListenerPC.inQueue : ListenerPC → Bool
  | .loadHead _ | .storeRequest _ _ | .reloadHead | .storeHead _ | .postFull => true
  | _ => false

/-- The worker is between its `sem_wait` and its `sem_post`. -/
def WorkerPC.inQueue : WorkerPC → Bool
  | .lock | .loadTail | .loadRequest _ | .reloadTail _ | .storeTail _ _ | .unlock _
  | .postEmpty _ => true
  | _ => false

end OsProjects.WebServer
