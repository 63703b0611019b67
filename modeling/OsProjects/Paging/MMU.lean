import OsProjects.Paging.Policy

/-!
# `pagetable.c` and `vm.c`: page faults, address translation, the request loop
-/

namespace OsProjects.Paging

/-- `pagefault_handler` when no frame is free: the page in the frame `PFN` is
written back if dirty, and is no longer valid. -/
def evictPage (s : VM) (PFN : ℤ) : VM :=
  let ipte := readIPTE s PFN
  let pte := readPTE s ipte.pid ipte.VPN
  if pte.dirty then
    writePTE (swapOut s ipte.pid ipte.VPN PFN) ipte.pid ipte.VPN
      { pte with dirty := false, valid := false }
  else writePTE s ipte.pid ipte.VPN { pte with valid := false }

/-- The end of `pagefault_handler`: the page enters the frame `PFN`. -/
def loadPage (s : VM) (pid VPN : ℤ) (reqType : Char) (PFN : ℤ) : VM :=
  let pte := readPTE s pid VPN
  let s := writePTE s pid VPN
    { pte with valid := true, dirty := decide (reqType = 'W'), PFN := PFN }
  swapIn (writeIPTE s PFN { pid := pid, VPN := VPN }) pid VPN PFN

def pagefaultHandler (c : Config) (s : VM) (pid VPN : ℤ) (reqType : Char) :
    Except Fault (ℤ × VM) :=
  let (PFN, s) := getFreeframe c s
  if PFN < 0 then do
    let (PFN, repl) ← findReplacement c s.repl
    .ok (PFN, loadPage (evictPage { s with repl := repl } PFN) pid VPN reqType PFN)
  else do
    let repl ← noteFill c s.repl PFN
    .ok (PFN, loadPage { s with repl := repl } pid VPN reqType PFN)

/-- The frame of the page, or `-1` on a page fault. -/
def getPFN (c : Config) (s : VM) (pid VPN : ℤ) (reqType : Char) : Except Fault (ℤ × VM) :=
  let pte := readPTE s pid VPN
  if pte.valid then do
    let s := if reqType = 'W' then writePTE s pid VPN { pte with dirty := true } else s
    let repl ← noteHit c s.repl pte.PFN
    .ok (pte.PFN, { s with repl := repl })
  else .ok (-1, s)

/-- The physical address and the flag `*hit`, which stays unset on a refusal.  A negative pid or
page number is not refused; in the program it then indexes outside of the page tables. -/
def MMU (c : Config) (s : VM) (pid : ℤ) (virtAddr : Int32) (reqType : Char) :
    Except Fault (ℤ × Option Bool × VM) :=
  let VPN := (virtAddr >>> 8).toInt
  let offset := (virtAddr &&& 0x00FF).toInt
  if VPN ≥ c.maxVPN ∨ offset > 256 then .ok (-1, none, s)
  else do
    let (PFN, s) ← getPFN c s pid VPN reqType
    if PFN ≥ 0 then
      let s := { s with stats := { s.stats with hitCount := s.stats.hitCount + 1 } }
      .ok (PFN <<< (8 : ℕ) + offset, some true, s)
    else
      let s := { s with stats := { s.stats with missCount := s.stats.missCount + 1 } }
      let (PFN, s) ← pagefaultHandler c s pid VPN reqType
      .ok (PFN <<< (8 : ℕ) + offset, some false, s)

/-! ## `vm.c` -/

/-- `none` is the return value `-1`. -/
def readPhysicalMem (c : Config) (s : VM) (addr : ℤ) : Option UInt8 :=
  let frameNo := addr >>> (8 : ℕ)
  if frameNo < 0 ∨ frameNo ≥ c.maxPFN then none else some (s.physicalMem frameNo)

def writePhysicalMem (c : Config) (s : VM) (addr : ℤ) (byte : UInt8) : Option VM :=
  let frameNo := addr >>> (8 : ℕ)
  if frameNo < 0 ∨ frameNo ≥ c.maxPFN then none
  else some { s with physicalMem := Function.update s.physicalMem frameNo byte }

/-- A request line of the input, as `sscanf` stores it. -/
structure Request where
  pid : ℤ
  reqType : Char
  virtAddr : Int32
  byte : UInt8
  deriving DecidableEq

/-- What `main` reports for a request. -/
inductive Reply
  | invalidPID
  | invalidPhysicalAddress (addr : ℤ)
  | read (addr : ℤ) (byte : UInt8) (hit : Option Bool)
  | readFailed
  | written (addr : ℤ) (byte : UInt8) (hit : Option Bool)
  | writeFailed
  | invalidReqType
  deriving DecidableEq

/-- The replies after which `main` returns. -/
def Reply.exits : Reply → Bool
  | .invalidPhysicalAddress _ => true
  | .invalidReqType => true
  | _ => false

/-- One turn of the loop of `main`. -/
def serve (c : Config) (s : VM) (r : Request) : Except Fault (Reply × VM) :=
  if r.pid > c.maxPID - 1 then .ok (.invalidPID, s)
  else do
    let (physicalAddr, hit, s) ← MMU c s r.pid r.virtAddr r.reqType
    let PFN := physicalAddr >>> (8 : ℕ)
    if PFN ≥ c.maxPFN ∨ PFN < 0 ∨ physicalAddr < 0 then
      .ok (.invalidPhysicalAddress physicalAddr, s)
    else if r.reqType = 'R' then
      match readPhysicalMem c s physicalAddr with
      | none => .ok (.readFailed, s)
      | some byte => .ok (.read physicalAddr byte hit, s)
    else if r.reqType = 'W' then
      match writePhysicalMem c s physicalAddr r.byte with
      | none => .ok (.writeFailed, s)
      | some s => .ok (.written physicalAddr r.byte hit, s)
    else .ok (.invalidReqType, s)

/-- The loop of `main` over the remaining requests: the replies it prints, and the
machine it ends with or the fault that stops it. -/
def run (c : Config) (s : VM) : List Request → List Reply × Except Fault VM
  | [] => ([], .ok s)
  | r :: rs =>
    match serve c s r with
    | .error e => ([], .error e)
    | .ok (reply, s) =>
      if reply.exits then ([reply], .ok s)
      else
        let (replies, final) := run c s rs
        (reply :: replies, final)

end OsProjects.Paging
