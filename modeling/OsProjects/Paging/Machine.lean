import OsProjects.Paging.List

/-!
# The simulated machine: `vm.h`, `pt_core.c`, `disk.c`

The `malloc`ed tables and the two memories are functions of the index, which is
an `int`.  `malloc` leaves arbitrary contents behind, so the state at start is
built over an arbitrary machine `junk` that supplies whatever the program has
not initialised.
-/

namespace OsProjects.Paging
open DoublyLinked

/-- The values `main` accepts for its second argument. -/
inductive ReplacementPolicy
  | ZERO
  | FIFO
  | LRU
  | CLOCK
  deriving DecidableEq

/-- The parameters of a run.  `main` refuses sizes below 1. -/
structure Config where
  replacementPolicy : ReplacementPolicy
  maxPFN : ℤ
  maxVPN : ℤ
  maxPID : ℤ
  one_le_maxPFN : 1 ≤ maxPFN
  one_le_maxVPN : 1 ≤ maxVPN
  one_le_maxPID : 1 ≤ maxPID

structure IPTE where
  pid : ℤ
  VPN : ℤ
  deriving DecidableEq

structure PTE where
  PFN : ℤ
  valid : Bool
  dirty : Bool
  deriving DecidableEq

/-- The counters are `int`s in the program; here they do not overflow. -/
structure Stats where
  hitCount : ℕ
  missCount : ℕ
  swapRead : ℕ
  swapWrite : ℕ
  deriving DecidableEq

/-- The globals of `pagetable.c`, together with the nodes allocated by `list.c`. -/
structure Replacer where
  fifoTail : ℤ
  heap : Heap ℤ
  head : NodePtr
  clockTail : ℤ
  clockRef : Option (ℤ → ℤ)

/-- The other globals of the simulator. -/
structure VM where
  pageTable : ℤ → ℤ → PTE
  invertedPageTable : ℤ → IPTE
  nextFreeFrame : ℤ
  physicalMem : ℤ → UInt8
  swapDisk : ℤ → ℤ → UInt8
  stats : Stats
  repl : Replacer

/-- Zeroed memory, one of the contents `malloc` may leave. -/
instance : Inhabited VM where
  default :=
    { pageTable := fun _ _ => ⟨0, false, false⟩
      invertedPageTable := fun _ => ⟨0, 0⟩
      nextFreeFrame := 0
      physicalMem := fun _ => 0
      swapDisk := fun _ _ => 0
      stats := ⟨0, 0, 0, 0⟩
      repl := ⟨0, [], none, 0, none⟩ }

/-! ## `pt_core.c` -/

def readPTE (s : VM) (pid VPN : ℤ) : PTE := s.pageTable pid VPN

def writePTE (s : VM) (pid VPN : ℤ) (pte : PTE) : VM :=
  { s with pageTable := fun p v => if p = pid ∧ v = VPN then pte else s.pageTable p v }

def readIPTE (s : VM) (PFN : ℤ) : IPTE := s.invertedPageTable PFN

def writeIPTE (s : VM) (PFN : ℤ) (ipte : IPTE) : VM :=
  { s with invertedPageTable := Function.update s.invertedPageTable PFN ipte }

/-- The next free frame, or `-1`. -/
def getFreeframe (c : Config) (s : VM) : ℤ × VM :=
  if s.nextFreeFrame ≥ c.maxPFN then (-1, s)
  else (s.nextFreeFrame, { s with nextFreeFrame := s.nextFreeFrame + 1 })

/-- The tables as `init_pagetable` allocates them: only `valid` is set, and only
for the pages that exist. -/
def initPagetable (c : Config) (s : VM) : VM :=
  { s with
    stats := { s.stats with hitCount := 0, missCount := 0 }
    pageTable := fun i j =>
      if 0 ≤ i ∧ i < c.maxPID ∧ 0 ≤ j ∧ j < c.maxVPN then
        { s.pageTable i j with valid := false }
      else s.pageTable i j }

/-! ## `disk.c` -/

/-- `'A'` -/
def swapInit : UInt8 := 65

def initSwapDisk (c : Config) (s : VM) : VM :=
  { s with
    swapDisk := fun i j =>
      if 0 ≤ i ∧ i < c.maxPID ∧ 0 ≤ j ∧ j < c.maxVPN then swapInit else s.swapDisk i j }

def swapIn (s : VM) (pid VPN PFN : ℤ) : VM :=
  { s with
    stats := { s.stats with swapRead := s.stats.swapRead + 1 }
    physicalMem := Function.update s.physicalMem PFN (s.swapDisk pid VPN) }

def swapOut (s : VM) (pid VPN PFN : ℤ) : VM :=
  { s with
    stats := { s.stats with swapWrite := s.stats.swapWrite + 1 }
    swapDisk := fun p v => if p = pid ∧ v = VPN then s.physicalMem PFN else s.swapDisk p v }

/-- The static initialisation of the globals. -/
def Replacer.start : Replacer :=
  { fifoTail := 0, heap := [], head := none, clockTail := 0, clockRef := none }

/-- The machine when `main` enters its loop. -/
def start (c : Config) (junk : VM) : VM :=
  initSwapDisk c (initPagetable c
    { junk with
      nextFreeFrame := 0
      stats := { hitCount := 0, missCount := 0, swapRead := 0, swapWrite := 0 }
      repl := Replacer.start })

end OsProjects.Paging
