import OsProjects.Paging.Machine

/-!
# `pagetable.c`: the replacement policies

`noteHit` and `noteFill` are the lines of `get_PFN` and of `pagefault_handler`
that keep the policies' own data up to date.
-/

namespace OsProjects.Paging
open DoublyLinked

def fifo (c : Config) (r : Replacer) : ℤ × Replacer :=
  (r.fifoTail, { r with fifoTail := (r.fifoTail + 1) % c.maxPFN })

def lru (r : Replacer) : Except Fault (ℤ × Replacer) :=
  if r.head = none then .error .indeterminate
  else do
    let prev ← goToLast r.heap r.heap.length r.head
    let n ← deref r.heap prev
    let (h, head) ← listRemoveTail r.heap r.head
    let (h, head) ← listInsertHead h head n.data
    .ok (n.data, { r with heap := h, head := head })

/-- The loop of `clock`.  A bit that is 0 is found within two rounds or never. -/
def clockLoop (c : Config) : ℕ → (ℤ → ℤ) → ℤ → Except Fault (ℤ × (ℤ → ℤ) × ℤ)
  | 0, _, _ => .error .endless
  | fuel + 1, ref, tail =>
    if ref tail = 0 then .ok (tail, Function.update ref tail 1, (tail + 1) % c.maxPFN)
    else if ref tail = 1 then clockLoop c fuel (Function.update ref tail 0) ((tail + 1) % c.maxPFN)
    else clockLoop c fuel ref ((tail + 1) % c.maxPFN)

def clock (c : Config) (r : Replacer) : Except Fault (ℤ × Replacer) :=
  match r.clockRef with
  | none => .error .nullPointer
  | some ref => do
    let (PFN, ref, tail) ← clockLoop c (2 * c.maxPFN.toNat) ref r.clockTail
    .ok (PFN, { r with clockRef := some ref, clockTail := tail })

def findReplacement (c : Config) (r : Replacer) : Except Fault (ℤ × Replacer) :=
  match c.replacementPolicy with
  | .ZERO => .ok (0, r)
  | .FIFO => .ok (fifo c r)
  | .LRU => lru r
  | .CLOCK => clock c r

/-- `get_PFN` on a hit of the frame `PFN`. -/
def noteHit (c : Config) (r : Replacer) (PFN : ℤ) : Except Fault Replacer :=
  match c.replacementPolicy with
  | .LRU => do
    let (h, head) ← listRemove r.heap r.head PFN
    let (h, head) ← listInsertHead h head PFN
    .ok { r with heap := h, head := head }
  | .CLOCK =>
    match r.clockRef with
    | none => .error .nullPointer
    | some ref => .ok { r with clockRef := some (Function.update ref PFN 1) }
  | _ => .ok r

/-- `pagefault_handler` when it found the free frame `PFN`. -/
def noteFill (c : Config) (r : Replacer) (PFN : ℤ) : Except Fault Replacer :=
  match c.replacementPolicy with
  | .LRU => do
    let (h, head) ← listInsertHead r.heap r.head PFN
    .ok { r with heap := h, head := head }
  | .CLOCK =>
    match r.clockRef with
    | none => .ok { r with clockRef := some fun _ => 1 }
    | some _ => .ok r
  | _ => .ok r

end OsProjects.Paging
