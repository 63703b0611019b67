import OsProjects.Library.Pair
import OsProjects.Library.StoreBuffer

/-!
# `pthread_peterson.c`

Two threads share a counter under Peterson's lock.  The processor keeps the
stores of a thread in its store buffer; `mfence` waits until they are in memory.
Every load and store of the C code is a step of its own, in the order of the
program, and a store may reach memory at any later time.
-/

namespace OsProjects.Peterson
open StoreBuffer Pair

inductive Loc
  | flag (self : Fin 2)
  | turn
  | count
  deriving DecidableEq

/-- The next statement of a thread.  `forTest` is the test of the `for` loop, with the first
store of `lock`; `store` holds the value that `count++` has loaded. -/
inductive PC
  | forTest
  | setTurn
  | fence
  | readFlag
  | readTurn
  | load
  | store (r : ℕ)
  | clearFlag
  deriving DecidableEq

structure State where
  memory : Memory (Fin 2) Loc ℕ
  pc : Fin 2 → PC
  i : Fin 2 → ℕ

/-- After `lock_init`, when both threads have been created. -/
def State.init : State where
  memory := { mem := fun _ => 0, buffer := fun _ => [] }
  pc := fun _ => .forTest
  i := fun _ => 0

def State.goto (s : State) (self : Fin 2) (pc : PC) : State :=
  { s with pc := Function.update s.pc self pc }

def State.write (s : State) (self : Fin 2) (x : Loc) (v : ℕ) (pc : PC) : State :=
  { s with memory := s.memory.write self x v, pc := Function.update s.pc self pc }

/-- The step that ends the lock's loop is labelled with the thread that enters.  The source has
`N = 10000`, for which `count` does not overflow, and it has the barrier. -/
inductive Step (barrier : Bool) (N : ℕ) : State → Option (Fin 2) → State → Prop
  | setFlag {s : State} {self : Fin 2} (hpc : s.pc self = .forTest) (hi : s.i self < N) :
      Step barrier N s none (s.write self (.flag self) 1 .setTurn)
  | setTurn {s : State} {self : Fin 2} (hpc : s.pc self = .setTurn) :
      Step barrier N s none (s.write self .turn (1 - self : Fin 2) .fence)
  | fence {s : State} {self : Fin 2} (hpc : s.pc self = .fence)
      (hb : barrier = true → s.memory.buffer self = []) :
      Step barrier N s none (s.goto self .readFlag)
  | flagClear {s : State} {self : Fin 2} (hpc : s.pc self = .readFlag)
      (hf : s.memory.read self (.flag (1 - self)) ≠ 1) :
      Step barrier N s (some self) (s.goto self .load)
  | flagSet {s : State} {self : Fin 2} (hpc : s.pc self = .readFlag)
      (hf : s.memory.read self (.flag (1 - self)) = 1) :
      Step barrier N s none (s.goto self .readTurn)
  | turnOther {s : State} {self : Fin 2} (hpc : s.pc self = .readTurn)
      (ht : s.memory.read self .turn = (1 - self : Fin 2)) :
      Step barrier N s none (s.goto self .readFlag)
  | turnSelf {s : State} {self : Fin 2} (hpc : s.pc self = .readTurn)
      (ht : s.memory.read self .turn ≠ (1 - self : Fin 2)) :
      Step barrier N s (some self) (s.goto self .load)
  | load {s : State} {self : Fin 2} (hpc : s.pc self = .load) :
      Step barrier N s none (s.goto self (.store (s.memory.read self .count)))
  | store {s : State} {self : Fin 2} {r : ℕ} (hpc : s.pc self = .store r) :
      Step barrier N s none (s.write self .count (r + 1) .clearFlag)
  | clearFlag {s : State} {self : Fin 2} (hpc : s.pc self = .clearFlag) :
      Step barrier N s none
        { s.write self (.flag self) 0 .forTest with i := Function.update s.i self (s.i self + 1) }
  | commit {s : State} {self : Fin 2} {x : Loc} {v : ℕ} {b : List (Loc × ℕ)}
      (hb : s.memory.buffer self = (x, v) :: b) :
      Step barrier N s none { s with memory := s.memory.commit self x v b }

/-- A run, with the threads that enter on the way. -/
inductive Run (barrier : Bool) (N : ℕ) : State → List (Fin 2) → State → Prop
  | refl (s : State) : Run barrier N s [] s
  | step {s s₁ s₂ : State} {a : Option (Fin 2)} {es : List (Fin 2)} (h : Step barrier N s a s₁)
      (hs : Run barrier N s₁ es s₂) : Run barrier N s (a.toList ++ es) s₂

/-- Between the lock's loop and the store that releases the lock. -/
def PC.critical : PC → Bool
  | .load => true
  | .store _ => true
  | .clearFlag => true
  | _ => false

/-! ## What memory shows of a thread -/

/-- How far a thread has come as far as its stores in memory tell. -/
inductive Phase
  | out
  | flagged
  | turned
  | inside
  deriving DecidableEq

/-- The stores of a thread are in the order of the program, so their number tells which they are. -/
def phaseOf : PC → ℕ → Phase
  | .forTest, 0 => .out
  | .forTest, _ => .inside
  | .setTurn, 0 => .flagged
  | .setTurn, 1 => .out
  | .setTurn, _ => .inside
  | .fence, 0 => .turned
  | .fence, 1 => .flagged
  | .fence, 2 => .out
  | .fence, _ => .inside
  | .readFlag, _ => .turned
  | .readTurn, _ => .turned
  | .load, _ => .inside
  | .store _, _ => .inside
  | .clearFlag, _ => .inside

/-- The increments of a thread that are in memory. -/
def visibleOf : PC → ℕ → ℕ → ℕ
  | .forTest, 2, i => i - 1
  | .setTurn, 3, i => i - 1
  | .fence, 4, i => i - 1
  | .clearFlag, 0, i => i + 1
  | _, _, i => i

def State.phase (s : State) (t : Fin 2) : Phase := phaseOf (s.pc t) (s.memory.buffer t).length

def State.visible (s : State) (t : Fin 2) : ℕ :=
  visibleOf (s.pc t) (s.memory.buffer t).length (s.i t)

/-- The stores that can be pending at each statement when `count` is `m` in memory. -/
def Shape (N : ℕ) (t : Fin 2) (m i : ℕ) (b : List (Loc × ℕ)) : PC → Prop
  | .forTest => i ≤ N ∧ (b = [] ∨ b = [(.flag t, 0)] ∨
      b = [(.count, m + 1), (.flag t, 0)] ∧ 0 < i)
  | .setTurn => i < N ∧ (b = [] ∨ b = [(.flag t, 1)] ∨ b = [(.flag t, 0), (.flag t, 1)] ∨
      b = [(.count, m + 1), (.flag t, 0), (.flag t, 1)] ∧ 0 < i)
  | .fence => i < N ∧ (b = [] ∨ b = [(.turn, ((1 - t : Fin 2) : ℕ))] ∨
      b = [(.flag t, 1), (.turn, ((1 - t : Fin 2) : ℕ))] ∨
      b = [(.flag t, 0), (.flag t, 1), (.turn, ((1 - t : Fin 2) : ℕ))] ∨
      b = [(.count, m + 1), (.flag t, 0), (.flag t, 1), (.turn, ((1 - t : Fin 2) : ℕ))] ∧ 0 < i)
  | .store r => i < N ∧ b = [] ∧ r = m
  | .clearFlag => i < N ∧ (b = [] ∨ b = [(.count, m + 1)])
  | _ => i < N ∧ b = []

def State.Shaped (N : ℕ) (s : State) (t : Fin 2) : Prop :=
  Shape N t (s.memory.mem .count) (s.i t) (s.memory.buffer t) (s.pc t)

end OsProjects.Peterson
