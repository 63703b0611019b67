import OsProjects.Library.Stdio
import OsProjects.Paging.MMU

/-!
# `vm.c`: the text that `main` reads and prints

The variables that `sscanf` fills are those of a `Request`.  They are not
initialised, and a line that does not fill one of them leaves it as it was.  What
`printf` makes of the `float`s at the end is a parameter.
-/

namespace OsProjects.Paging
open Stdio

/-! ## The lines of the input -/

/-- `"# PAGES: %d, # PROCS: %d"` -/
def headerFormat : List Directive :=
  literal "# PAGES: " ++ .int 10 :: (literal ", # PROCS: " ++ [.int 10])

/-- `"%d %c 0x%x %c"` -/
def requestFormat : List Directive :=
  [.int 10, .space, .char, .space, .lit '0', .lit 'x', .int 16, .space, .char]

/-- The number stored by the `i`-th conversion: an `int` gets the low half of the `long`. -/
def intValue (values : List Value) (i : ℕ) : Option Int32 :=
  match values[i]? with
  | some (.int v) => some (Int32.ofInt v)
  | _ => none

def charValue (values : List Value) (i : ℕ) : Option Char :=
  match values[i]? with
  | some (.char c) => some c
  | _ => none

/-- A byte of the text. -/
def byteOf (c : Char) : UInt8 := UInt8.ofNat c.toNat

def charOf (b : UInt8) : Char := Char.ofNat b.toNat

/-- The variables after `sscanf`. -/
def Request.assign (v : Request) (values : List Value) : Request where
  pid := ((intValue values 0).map Int32.toInt).getD v.pid
  reqType := (charValue values 1).getD v.reqType
  virtAddr := (intValue values 2).getD v.virtAddr
  byte := ((charValue values 3).map byteOf).getD v.byte

/-- `sscanf` has stored too few values for this type of request. -/
def Request.incomplete (v : Request) (ret : ℕ) : Bool :=
  (v.reqType = 'R' && ret < 3) || (v.reqType = 'W' && ret < 4)

/-! ## The lines of the output -/

/-- An `int` as `%x` reads it. -/
def unsigned (v : ℤ) : ℕ := (BitVec.ofInt 32 v).toNat

def errorText (input : Text) : Text := "Error: invalid input: ".toList ++ input ++ "\n".toList

/-- `"[pid %d, %c] 0x"` -/
def Request.tag (r : Request) : Text :=
  "[pid ".toList ++ dec r.pid ++ ", ".toList ++ [r.reqType] ++ "] 0x".toList

/-- A served request.  `hit` is set whenever an access has gone through. -/
def Request.servedText (r : Request) (addr : ℤ) (byte : UInt8) (hit : Option Bool) : Text :=
  r.tag ++ hex 4 (unsigned r.virtAddr.toInt) ++ " --> 0x".toList ++ hex 4 (unsigned addr) ++
    ": ".toList ++ [charOf byte] ++ (if hit = some true then " [hit]\n" else " [miss]\n").toList

/-- What `main` prints for a request.  The two messages about a failed access have no
text here: the address has been checked before. -/
def Reply.text (r : Request) : Reply → Text
  | .invalidPID => r.tag ++ hex 0 (unsigned r.virtAddr.toInt) ++ ": Invalid PID.\n".toList
  | .invalidPhysicalAddress addr =>
    r.tag ++ hex 0 (unsigned r.virtAddr.toInt) ++ " --> 0x".toList ++ hex 0 (unsigned addr) ++
      ": Invalid Physical Address.\n".toList
  | .read addr byte hit => r.servedText addr byte hit
  | .written addr byte hit => r.servedText addr byte hit
  | .readFailed => []
  | .writeFailed => []
  | .invalidReqType => "Error: invalid request reqType: ".toList ++ [r.reqType] ++ "\n".toList

/-- A read goes into the variable that `sscanf` fills, too. -/
def Request.after (v : Request) : Reply → Request
  | .read _ byte _ => { v with byte := byte }
  | _ => v

/-! ## The statistics -/

section
variable (percent : Int32 → Int32 → Text)

/-- `pt_print_stats`.  `percent n req` is the text of `(float) n*100 / (float)req` for `%.2f`. -/
def ptPrintStats (stats : Stats) : Text :=
  let hit := Int32.ofInt stats.hitCount
  let miss := Int32.ofInt stats.missCount
  let req := hit + miss
  "Request: ".toList ++ dec req.toInt ++ "\n".toList ++
    "Page Hit: ".toList ++ dec hit.toInt ++ " (".toList ++ percent hit req ++ "%)\n".toList ++
    "Page Miss: ".toList ++ dec miss.toInt ++ " (".toList ++ percent miss req ++ "%)\n".toList ++
    "Swap Read: ".toList ++ dec (Int32.ofInt stats.swapRead).toInt ++ "\n".toList ++
    "Swap Write: ".toList ++ dec (Int32.ofInt stats.swapWrite).toInt ++ "\n".toList

/-! ## `main` -/

/-- How `main` ends: by a fault, by a `return` in its loop, or behind it. -/
inductive Final
  | fault (e : Fault)
  /-- an index outside of `pageTable` -/
  | outside
  | returned (s : VM)
  | finished (s : VM)

/-- What is printed behind the loop. -/
def Final.closing : Final → Text
  | .finished s => "=====================================\n".toList ++ ptPrintStats percent s.stats
  | _ => []

/-- Neither `main` nor the MMU refuses the request, and one of its indices into the page tables is
negative. -/
def Config.Outside (c : Config) (r : Request) : Prop :=
  r.pid ≤ c.maxPID - 1 ∧ (r.virtAddr >>> 8).toInt < c.maxVPN ∧
    (r.pid < 0 ∨ (r.virtAddr >>> 8).toInt < 0)

instance (c : Config) : DecidablePred c.Outside := fun _ =>
  inferInstanceAs (Decidable (_ ∧ _ ∧ (_ ∨ _)))

/-- `input[0] == '#' || input[0] == '%'` -/
def isComment (input : Text) : Bool := input.head? = some '#' || input.head? = some '%'

def mainLoop (c : Config) : VM → Request → List Text → Text × Final
  | s, _, [] => ([], .finished s)
  | s, v, input :: rest =>
    if isComment input then mainLoop c s v rest
    else
      let values := (scan requestFormat input).1
      let v := v.assign values
      if v.incomplete values.length then
        let (out, final) := mainLoop c s v rest
        (errorText input ++ out, final)
      else if c.Outside v then ([], .outside)
      else
        match serve c s v with
        | .error e => ([], .fault e)
        | .ok (reply, s) =>
          if reply.exits then (reply.text v, .returned s)
          else
            let (out, final) := mainLoop c s (v.after reply) rest
            (reply.text v ++ out, final)

/-- `replacementPolicy` as it is printed. -/
def ReplacementPolicy.text : ReplacementPolicy → Text
  | .ZERO => "ZERO".toList
  | .FIFO => "FIFO".toList
  | .LRU => "LRU".toList
  | .CLOCK => "CLOCK".toList

def ReplacementPolicy.ofInt (v : ℤ) : Option ReplacementPolicy :=
  if v = 0 then some .ZERO
  else if v = 1 then some .FIFO
  else if v = 2 then some .LRU
  else if v = 3 then some .CLOCK
  else none

inductive Outcome
  /-- the file is empty -/
  | empty
  | unknownPolicy (out : Text)
  /-- a number of pages, frames or processes is not between 1 and 256 -/
  | badSize (out : Text)
  | ran (out : Text) (final : Final)

/-- `"# PAGES: %d, # FRAMES: %d, # PROCS: %d, Replacement Policy: %d - "` -/
def sizesText (maxVPN maxPFN maxPID policy : ℤ) : Text :=
  "# PAGES: ".toList ++ dec maxVPN ++ ", # FRAMES: ".toList ++ dec maxPFN ++
    ", # PROCS: ".toList ++ dec maxPID ++ ", Replacement Policy: ".toList ++ dec policy ++
      " - ".toList

/-- The sizes and the name of the policy. -/
def bannerText (maxVPN maxPFN maxPID policy : ℤ) (p : ReplacementPolicy) : Text :=
  sizesText maxVPN maxPFN maxPID policy ++ p.text ++ "\n".toList

/-- `main` with the two numbers it is called with, on a file that can be opened.  `junk` is
the memory that `malloc` returns, `v` the variables before the first `sscanf`. -/
def main (maxPFN policy : Int32) (file : Text) (junk : VM) (v : Request) : Outcome :=
  match readLines 256 file with
  | [] => .empty
  | header :: rest =>
    let values := (scan headerFormat header).1
    -- the globals are 0 before
    let maxVPN := ((intValue values 0).getD 0).toInt
    let maxPID := ((intValue values 1).getD 0).toInt
    match ReplacementPolicy.ofInt policy.toInt with
    | none =>
      .unknownPolicy (sizesText maxVPN maxPFN.toInt maxPID policy.toInt ++ "UNKNOWN!\n".toList)
    | some p =>
      let banner := bannerText maxVPN maxPFN.toInt maxPID policy.toInt p
      if h : (1 ≤ maxVPN ∧ maxVPN ≤ 256) ∧ (1 ≤ maxPFN.toInt ∧ maxPFN.toInt ≤ 256) ∧
          (1 ≤ maxPID ∧ maxPID ≤ 256) then
        let c : Config :=
          { replacementPolicy := p
            maxPFN := maxPFN.toInt
            maxVPN := maxVPN
            maxPID := maxPID
            one_le_maxPFN := h.2.1.1
            one_le_maxVPN := h.1.1
            one_le_maxPID := h.2.2.1 }
        let (out, final) := mainLoop c (start c junk) v rest
        .ran (banner ++ out ++ final.closing percent) final
      else .badSize banner

end

end OsProjects.Paging
