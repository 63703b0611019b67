import Mathlib

/-!
# Memory behind store buffers

Every thread `τ` has a queue of stores that are not in memory yet.  A load takes
the thread's own latest store to the location before it looks into memory, and
the stores of one thread reach memory in the order of the program.
-/

namespace OsProjects.StoreBuffer

variable {τ α β : Type*} [DecidableEq τ] [DecidableEq α]

structure Memory (τ α β : Type*) where
  mem : α → β
  buffer : τ → List (α × β)

def Memory.read (m : Memory τ α β) (t : τ) (x : α) : β :=
  match (m.buffer t).reverse.find? fun w => w.1 = x with
  | some w => w.2
  | none => m.mem x

def Memory.write (m : Memory τ α β) (t : τ) (x : α) (v : β) : Memory τ α β :=
  { m with buffer := Function.update m.buffer t (m.buffer t ++ [(x, v)]) }

/-- The oldest store `(x, v)` of the thread reaches memory, the stores `b` stay behind. -/
def Memory.commit (m : Memory τ α β) (t : τ) (x : α) (v : β) (b : List (α × β)) : Memory τ α β :=
  { mem := Function.update m.mem x v, buffer := Function.update m.buffer t b }

variable {m : Memory τ α β} {t u : τ} {x : α} {v : β} {b : List (α × β)}

omit [DecidableEq τ] in
lemma read_of_empty (h : m.buffer t = []) : m.read t x = m.mem x := by
  rw [Memory.read, h]
  rfl

omit [DecidableEq τ] in
/-- A location the thread has not written lately is read from memory. -/
lemma read_of_notMem (h : ∀ w ∈ m.buffer t, w.1 ≠ x) : m.read t x = m.mem x := by
  have hnone : ((m.buffer t).reverse.find? fun w => decide (w.1 = x)) = none := by
    apply List.find?_eq_none.mpr
    intro w hw hx
    exact h w (List.mem_reverse.mp hw) (of_decide_eq_true hx)
  rw [Memory.read, hnone]

omit [DecidableEq α] in
@[simp] lemma write_mem : (m.write t x v).mem = m.mem := rfl

omit [DecidableEq α] in
@[simp] lemma write_buffer_self : (m.write t x v).buffer t = m.buffer t ++ [(x, v)] :=
  Function.update_self _ _ _

omit [DecidableEq α] in
lemma write_buffer_of_ne (h : u ≠ t) : (m.write t x v).buffer u = m.buffer u :=
  Function.update_of_ne h _ _

@[simp] lemma commit_mem : (m.commit t x v b).mem = Function.update m.mem x v := rfl

@[simp] lemma commit_buffer_self : (m.commit t x v b).buffer t = b := Function.update_self _ _ _

lemma commit_buffer_of_ne (h : u ≠ t) : (m.commit t x v b).buffer u = m.buffer u :=
  Function.update_of_ne h _ _

end OsProjects.StoreBuffer
