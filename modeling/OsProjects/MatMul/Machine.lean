import Mathlib

/-!
# The parallel matrix product: `matmul.c`

The parent and its children take turns in any order.  A child is known by its
pid, the number of children forked before it.  A pipe holds the `int`s that have
been written and not read; a write waits for room, a read for data, and
`waitpid` for the end of the child.  `fork` and `pipe` succeed.
-/

namespace OsProjects.MatMul

abbrev Matrix := ℕ → ℕ → Int32

/-- The globals set by `read_matrix`. -/
structure Input where
  m : ℕ
  n : ℕ
  p : ℕ
  A : Matrix
  B : Matrix

instance : Inhabited Input := ⟨⟨0, 0, 0, fun _ _ => 0, fun _ _ => 0⟩⟩

/-- `matrix_tranpose` -/
def Input.bTran (x : Input) : Matrix := fun j i => x.B i j

def linearMult (colA rowB : ℕ → Int32) (n : ℕ) : Int32 :=
  (List.range n).foldl (fun r i => r + colA i * rowB i) 0

/-- `serial_mat_mult`; `read_matrix` has set `C_serial` to zero. -/
def serialMatMult (x : Input) : Matrix :=
  fun i j => if i < x.m ∧ j < x.p then linearMult (x.A i) (x.bTran j) x.n else 0

/-- The status of a child that has ended: `WIFEXITED` or not. -/
inductive Status
  | exited
  | signaled
  deriving DecidableEq

/-- What a child does next in `child_process_core`. -/
inductive ChildPC
  | simulateCrash
  | write (j : ℕ)
  | ended (status : Status)
  deriving DecidableEq

/-- A child computes the row `row` and writes to the pipe of that number. -/
structure Child where
  row : ℕ
  pc : ChildPC
  waited : Bool
  deriving DecidableEq

/-- What the parent does next in `parallel_mat_mult`. -/
inductive ParentPC
  | fork (i : ℕ)
  | loop
  /-- `waitpid` has returned -/
  | handle
  | done
  deriving DecidableEq

/-- The variables of `parallel_mat_mult`, the children and the pipes. -/
structure State where
  parent : ParentPC
  pid : ℕ → ℕ
  pidToPipe : ℕ → ℕ
  j : ℕ
  endIndex : ℤ
  failP : ℕ
  procLeft : ℤ
  statusId : Status
  buf : ℕ → Int32
  cParallel : Matrix
  children : List Child
  pipes : ℕ → List Int32

instance : Inhabited State where
  default :=
    { parent := .done
      pid := fun _ => 0
      pidToPipe := fun _ => 0
      j := 0
      endIndex := 0
      failP := 0
      procLeft := 0
      statusId := .exited
      buf := fun _ => 0
      cParallel := fun _ _ => 0
      children := []
      pipes := fun _ => [] }

/-- `parallel_mat_mult` before its first `fork`.  The locals it does not initialise are those
of `junk`. -/
def start (x : Input) (junk : State) : State :=
  { junk with
    parent := .fork 0
    endIndex := x.m - 1
    failP := 0
    procLeft := x.m
    cParallel := fun _ _ => 0
    children := [] }

inductive Event
  | fork (pid : ℕ) (row : ℕ)
  | waitpid (pid : ℕ)
  | read (row : ℕ)
  | crash (pid : ℕ)
  | silent
  deriving DecidableEq

/-- `fork` of a child for the row `row`, its pid kept in the slot `slot`. -/
def State.forkChild (s : State) (slot row : ℕ) : State :=
  { s with
    pidToPipe := Function.update s.pidToPipe slot row
    pid := Function.update s.pid slot s.children.length
    children := s.children ++ [{ row := row, pc := .simulateCrash, waited := false }] }

/-- `read(pipefd[index][0], buf, sizeof(int) * p)`: what is there, at most `p` `int`s. -/
def State.readPipe (s : State) (p index : ℕ) : State :=
  { s with
    buf := fun k => ((s.pipes index).take p).getD k (s.buf k)
    pipes := Function.update s.pipes index ((s.pipes index).drop p) }

/-- The copy of `buf` to the row `index` of `C_parallel`. -/
def State.storeRow (s : State) (p index : ℕ) : State :=
  { s with
    cParallel := fun i k => if i = index ∧ k < p then s.buf k else s.cParallel i k }

/-- The end of an iteration of the loop. -/
def State.nextIteration (s : State) : State :=
  if s.j = s.endIndex then
    { s with parent := .loop, j := 0, endIndex := s.procLeft - 1, failP := 0 }
  else { s with parent := .loop, j := s.j + 1 }

inductive ParentStep (x : Input) : State → Event → State → Prop
  | fork {s : State} {i : ℕ} (hpc : s.parent = .fork i) (hi : i < x.m) :
      ParentStep x s (.fork s.children.length i)
        { s.forkChild i i with parent := .fork (i + 1), pipes := Function.update s.pipes i [] }
  | forked {s : State} (hpc : s.parent = .fork x.m) :
      ParentStep x s .silent { s with parent := .loop, j := 0 }
  | finish {s : State} (hpc : s.parent = .loop) (hleft : s.procLeft = 0) :
      ParentStep x s .silent { s with parent := .done }
  | waitpid {s : State} {c : Child} {status : Status} (hpc : s.parent = .loop)
      (hleft : s.procLeft ≠ 0) (hc : s.children[s.pid s.j]? = some c) (hw : c.waited = false)
      (hend : c.pc = .ended status) :
      ParentStep x s (.waitpid (s.pid s.j))
        { s with
          parent := .handle
          statusId := status
          children := s.children.set (s.pid s.j) { c with waited := true } }
  /-- `waitpid` fails at once when there is no such child to wait for. -/
  | waitpidFails {s : State} (hpc : s.parent = .loop) (hleft : s.procLeft ≠ 0)
      (hc : ∀ c, s.children[s.pid s.j]? = some c → c.waited = true) :
      ParentStep x s (.waitpid (s.pid s.j)) { s with parent := .handle }
  | read {s : State} (hpc : s.parent = .handle) (hstatus : s.statusId = .exited)
      (hdata : s.pipes (s.pidToPipe s.j) ≠ [] ∨ x.p = 0) :
      ParentStep x s (.read (s.pidToPipe s.j))
        ({ (s.readPipe x.p (s.pidToPipe s.j)).storeRow x.p (s.pidToPipe s.j) with
            procLeft := s.procLeft - 1 }.nextIteration)
  | refork {s : State} (hpc : s.parent = .handle) (hstatus : s.statusId = .signaled) :
      ParentStep x s (.fork s.children.length (s.pidToPipe s.j))
        ({ s.forkChild s.failP (s.pidToPipe s.j) with failP := s.failP + 1 }.nextIteration)

/-- The child `q` goes to `pc`. -/
def State.goto (s : State) (q : ℕ) (c : Child) (pc : ChildPC) : State :=
  { s with children := s.children.set q { c with pc := pc } }

/-- With `crashRate` positive, `simulate_crash` may abort the child.  A pipe has room for
`capacity` bytes. -/
inductive ChildStep (x : Input) (crashRate : ℤ) (capacity q : ℕ) : State → Event → State → Prop
  | crash {s : State} {c : Child} (hc : s.children[q]? = some c) (hpc : c.pc = .simulateCrash)
      (hcrash : 0 < crashRate) :
      ChildStep x crashRate capacity q s (.crash q) (s.goto q c (.ended .signaled))
  | survive {s : State} {c : Child} (hc : s.children[q]? = some c) (hpc : c.pc = .simulateCrash) :
      ChildStep x crashRate capacity q s .silent (s.goto q c (.write 0))
  | write {s : State} {c : Child} {j : ℕ} (hc : s.children[q]? = some c) (hpc : c.pc = .write j)
      (hj : j < x.p) (hroom : 4 * (s.pipes c.row).length + 4 ≤ capacity) :
      ChildStep x crashRate capacity q s .silent
        { s.goto q c (.write (j + 1)) with
          pipes := Function.update s.pipes c.row
            (s.pipes c.row ++ [linearMult (x.A c.row) (x.bTran j) x.n]) }
  | exit {s : State} {c : Child} (hc : s.children[q]? = some c) (hpc : c.pc = .write x.p) :
      ChildStep x crashRate capacity q s .silent (s.goto q c (.ended .exited))

inductive Step (x : Input) (crashRate : ℤ) (capacity : ℕ) : State → Event → State → Prop
  | parent {s s' : State} {e : Event} (h : ParentStep x s e s') : Step x crashRate capacity s e s'
  | child {s s' : State} {e : Event} (q : ℕ) (h : ChildStep x crashRate capacity q s e s') :
      Step x crashRate capacity s e s'

/-- The events of a run, the latest one last. -/
inductive Exec (x : Input) (crashRate : ℤ) (capacity : ℕ) (junk : State) :
    List Event → State → Prop
  | start : Exec x crashRate capacity junk [] (start x junk)
  | step {es : List Event} {e : Event} {s s' : State} (hrun : Exec x crashRate capacity junk es s)
      (hstep : Step x crashRate capacity s e s') : Exec x crashRate capacity junk (es ++ [e]) s'

/-- The pids waited for, one for each iteration of the loop. -/
def waits (es : List Event) : List ℕ :=
  es.filterMap fun
    | .waitpid q => some q
    | _ => none

/-- The rows read from their pipes. -/
def reads (es : List Event) : List ℕ :=
  es.filterMap fun
    | .read row => some row
    | _ => none

/-- The pids forked. -/
def forks (es : List Event) : List ℕ :=
  es.filterMap fun
    | .fork q _ => some q
    | _ => none

/-- The pids of the children that crashed. -/
def crashes (es : List Event) : List ℕ :=
  es.filterMap fun
    | .crash q => some q
    | _ => none

end OsProjects.MatMul
