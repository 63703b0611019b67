import OsProjects.Library.Ranked

/-!
# `matrix.c`

The parent sends every row to the child before it takes the first answer out of
its own inbox.  A message queue holds `capacity` messages: `msgsnd` waits for
room and `msgrcv` for a message.  `nprocs` is 1, and no call fails.
-/

namespace OsProjects.Mailbox
open Relation Ranked

/-- `MAX_SIZE` -/
def maxSize : ℕ := 1000

/-- The matrices and `atoi(argv[1])`.  A negative size runs no loop, as 0 does. -/
structure Input where
  size : ℕ
  matrix1 : ℕ → ℕ → Int32
  matrix2 : ℕ → ℕ → Int32

/-- `matrix` -/
structure Message where
  index : ℕ
  finished : Bool
  result : ℕ → Int32

inductive ParentPC
  /-- the check of the size, before `fork` -/
  | check
  | populate (rows : ℕ)
  | empty (rows : ℕ)
  | notify
  | waitpid
  | free
  | done
  /-- `exit(1)` behind this message -/
  | exited (message : String)
  deriving DecidableEq

inductive ChildPC
  | unborn
  | receive
  | send (message : Message)
  | free
  | done

/-- `message` is that of the parent. -/
structure State where
  parent : ParentPC
  message : Message
  result : ℕ → ℕ → Int32
  child : ChildPC
  mailbox : List Message
  inbox : List Message

/-- `memset(message.result, 0, size)` clears the first `size` bytes, and an `int` has four. -/
def memset (size : ℕ) (result : ℕ → Int32) (z : ℕ) : Int32 :=
  if 4 * z + 4 ≤ size then 0
  else if size ≤ 4 * z then result z
  else
    let bits := 8 * (size - 4 * z)
    .ofBitVec (((result z).toBitVec >>> bits) <<< bits)

/-- What the child makes of a message. -/
def answer (x : Input) (m : Message) : Message :=
  { m with
    result := fun z =>
      if z < x.size then
        (List.range x.size).foldl (fun r cols => r + x.matrix1 m.index cols * x.matrix2 cols z)
          (memset x.size m.result z)
      else memset x.size m.result z }

/-- At the start of `main`.  `garbage` is what the stack holds in place of `message.result`. -/
def start (garbage : ℕ → Int32) : State where
  parent := .check
  message := { index := 0, finished := false, result := garbage }
  result := fun _ _ => 0
  child := .unborn
  mailbox := []
  inbox := []

/-- `result[message.index][cols] = message.result[cols]` for all `cols` -/
def State.storeRow (s : State) (size : ℕ) (m : Message) : State :=
  { s with
    message := m
    result := fun i cols => if i = m.index ∧ cols < size then m.result cols else s.result i cols }

inductive Step (x : Input) (capacity : ℕ) (s : State) : State → Prop
  | tooLarge (hpc : s.parent = .check) (hsize : maxSize < x.size) :
      Step x capacity s { s with parent := .exited "Matrix too large\n" }
  | fork (hpc : s.parent = .check) (hsize : x.size ≤ maxSize) :
      Step x capacity s { s with parent := .populate 0, child := .receive }
  | populate {rows : ℕ} (hpc : s.parent = .populate rows) (hrows : rows < x.size)
      (hroom : s.mailbox.length < capacity) :
      Step x capacity s
        { s with
          parent := .populate (rows + 1)
          message := { s.message with index := rows }
          mailbox := s.mailbox ++ [{ s.message with index := rows }] }
  | populated (hpc : s.parent = .populate x.size) : Step x capacity s { s with parent := .empty 0 }
  | empty {rows : ℕ} {m : Message} {ms : List Message} (hpc : s.parent = .empty rows)
      (hrows : rows < x.size) (hinbox : s.inbox = m :: ms) :
      Step x capacity s { s.storeRow x.size m with parent := .empty (rows + 1), inbox := ms }
  | emptied (hpc : s.parent = .empty x.size) : Step x capacity s { s with parent := .notify }
  | notify (hpc : s.parent = .notify) (hroom : s.mailbox.length < capacity) :
      Step x capacity s
        { s with
          parent := .waitpid
          message := { s.message with finished := true }
          mailbox := s.mailbox ++ [{ s.message with finished := true }] }
  | waitpid (hpc : s.parent = .waitpid) (hchild : s.child = .done) :
      Step x capacity s { s with parent := .free }
  | freeInbox (hpc : s.parent = .free) : Step x capacity s { s with parent := .done, inbox := [] }
  | receive {m : Message} {ms : List Message} (hpc : s.child = .receive)
      (hmailbox : s.mailbox = m :: ms) (hm : m.finished = false) :
      Step x capacity s { s with child := .send (answer x m), mailbox := ms }
  | finish {m : Message} {ms : List Message} (hpc : s.child = .receive)
      (hmailbox : s.mailbox = m :: ms) (hm : m.finished = true) :
      Step x capacity s { s with child := .free, mailbox := ms }
  | send {m : Message} (hpc : s.child = .send m) (hroom : s.inbox.length < capacity) :
      Step x capacity s { s with child := .receive, inbox := s.inbox ++ [m] }
  | freeMailbox (hpc : s.child = .free) :
      Step x capacity s { s with child := .done, mailbox := [] }

def Run (x : Input) (capacity : ℕ) : State → State → Prop := ReflTransGen (Step x capacity)

def Stuck (x : Input) (capacity : ℕ) (s : State) : Prop := ∀ s', ¬ Step x capacity s s'

/-! ## Every run comes to its end -/

def parentRest (size : ℕ) : ParentPC → ℕ
  | .check => 4 * size + 11
  | .populate rows => 4 * (size - rows) + 10
  | .empty _ => 9
  | .notify => 8
  | .waitpid => 4
  | .free => 3
  | .done => 2
  | .exited _ => 2

def childRest : ChildPC → ℕ
  | .unborn => 0
  | .receive => 0
  | .send _ => 2
  | .free => 2
  | .done => 0

/-- A message in the mailbox has three steps before it. -/
def State.rank (size : ℕ) (s : State) : ℕ :=
  parentRest size s.parent + childRest s.child + 3 * s.mailbox.length + s.inbox.length

variable {x : Input} {capacity : ℕ} {garbage : ℕ → Int32} {s s' : State}

lemma Step.rank_lt (hs : Step x capacity s s') : s'.rank x.size < s.rank x.size := by
  unfold State.rank
  cases hs with
  | tooLarge hpc => rw [hpc]; simp only [parentRest]; omega
  | fork hpc => rw [hpc]; simp only [parentRest, childRest]; omega
  | populate hpc hrows =>
    rw [hpc, List.length_append, List.length_singleton]
    simp only [parentRest]
    omega
  | populated hpc => rw [hpc]; simp only [parentRest]; omega
  | empty hpc _ hinbox =>
    rw [hpc, hinbox]
    simp only [State.storeRow, parentRest, List.length_cons]
    omega
  | emptied hpc => rw [hpc]; simp only [parentRest]; omega
  | notify hpc =>
    rw [hpc, List.length_append, List.length_singleton]
    simp only [parentRest]
    omega
  | waitpid hpc => rw [hpc]; simp only [parentRest]; omega
  | freeInbox hpc => rw [hpc]; simp only [parentRest, List.length_nil]; omega
  | receive hpc hmailbox => rw [hpc, hmailbox]; simp only [childRest, List.length_cons]; omega
  | finish hpc hmailbox => rw [hpc, hmailbox]; simp only [childRest, List.length_cons]; omega
  | send hpc =>
    rw [hpc, List.length_append, List.length_singleton]
    simp only [childRest]
    omega
  | freeMailbox hpc => rw [hpc]; simp only [childRest, List.length_nil]; omega

end OsProjects.Mailbox
