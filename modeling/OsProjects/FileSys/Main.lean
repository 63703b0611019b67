import OsProjects.FileSys.Output
import OsProjects.Library.Stdio

/-!
# `fs_sim.c`: a session

`main` mounts the disk, reads commands until the end of the input, `quit` or `exit`, and unmounts
the disk.  Its arrays are too small for some lines: where C would write behind one of them, the
model stops.
-/

namespace OsProjects.FileSys
open Stdio

/-- The bytes of a text. -/
def bytes (t : Text) : List UInt8 := t.map fun c => UInt8.ofNat c.toNat

/-- A word in an array of 16 bytes, up to its NUL. -/
def Word.ofBytes (b : List UInt8) (h : b.length ≤ 15) : Word where
  text := b.takeWhile (· ≠ 0)
  length_le := (List.takeWhile_prefix _).length_le.trans h
  ne_zero := by
    intro hmem
    have hne := List.mem_takeWhile_imp hmem
    exact of_decide_eq_true hne rfl

/-- What a line amounts to. -/
inductive Turn
  | overflow
  | quit
  | command (line : Line)

/-- One turn of the loop up to `execute_command`, where `fgets` has stored `input` and a `'\0'`:
`sscanf(input, "%s %s %s", comm, arg1, arg2)`. -/
def turn (input : Text) : Turn :=
  if input.length ≥ 112 then .overflow
  else
    let words := scanWords 3 (cstr input)
    let comm := bytes (words.getD 0 [])
    let arg1 := bytes (words.getD 1 [])
    let arg2 := bytes (words.getD 2 [])
    -- `EOF` when there is no word
    let numArg : ℤ := if words = [] then -1 else words.length
    if h : comm.length ≤ 63 ∧ arg1.length ≤ 15 ∧ arg2.length ≤ 15 then
      if command comm (str "quit") then .quit
      else if command comm (str "exit") then .quit
      else .command ⟨comm, .ofBytes arg1 h.2.1, .ofBytes arg2 h.2.2, numArg - 1⟩
    else .overflow

/-- The loop of `main`, from the `k`-th turn on.  Without a result a line has run over. -/
def mainLoop (junk : ℕ → Junk) : ℕ → List Text → FS → Option FS
  | _, [], s => some s
  | k, input :: rest, s =>
    let s := printf s (str "command: " ++ bytes (cstr input))
    match turn input with
    | .overflow => none
    | .quit => some s
    | .command line =>
      mainLoop junk (k + 1) rest (printf (executeCommand (junk k) line s).2 (str "\n% "))

/-- `fs_mount`, whether or not there is a file. -/
def mount : Option (ℤ → Block) → Option FS
  | none => some fsMountNew
  | some file => fsMount file

inductive Outcome
  /-- the file has no magic number -/
  | invalid
  | overflow
  | done (s : FS)

def banner : List UInt8 := str "sizeof inode: 128, sizeof superblock: 512, sizeof Dentry: 512\n"

/-- `main` with the name of a disk: its file, if there is one, and the input.  `last` is the memory
behind the bitmaps when they are written. -/
def main (junk : ℕ → Junk) (last : Junk) (file : Option (ℤ → Block)) (input : Text) : Outcome :=
  match mount file with
  | none => .invalid
  | some s =>
    match mainLoop junk 0 (storedLines 256 input) (printf (s.behind banner) (str "% ")) with
    | none => .overflow
    | some s => .done (fsUmount last s)

/-! ## The loop is a run -/

/-- The commands of a session, up to `quit`, unless one of their lines runs over. -/
def commands : List Text → Option (List Line)
  | [] => some []
  | input :: rest =>
    match turn input with
    | .overflow => none
    | .quit => some []
    | .command line => (commands rest).map (line :: ·)

/-- The commands that are run, up to `quit` or a line that runs over. -/
def executed : List Text → List Line
  | [] => []
  | input :: rest =>
    match turn input with
    | .command line => line :: executed rest
    | _ => []

/-- Commands up to a line that runs over. -/
def Overruns (inputs : List Text) : Prop :=
  ∃ before input rest, inputs = before ++ input :: rest ∧
    (∀ i ∈ before, ∃ line, turn i = .command line) ∧ turn input = .overflow

/-- The junk that the commands find. -/
def withJunk (junk : ℕ → Junk) : ℕ → List Line → List (Junk × Line)
  | _, [] => []
  | k, line :: lines => (junk k, line) :: withJunk junk (k + 1) lines

/-- Nothing has been printed yet. -/
def FS.quiet (s : FS) : FS := { s with stdout := [] }

/-- What a session prints behind the first prompt. -/
def transcript (junk : ℕ → Junk) : ℕ → List Text → FS → List UInt8
  | _, [], _ => []
  | k, input :: rest, s =>
    str "command: " ++ bytes (cstr input) ++
      match turn input with
      | .overflow => []
      | .quit => []
      | .command line =>
        (executeCommand (junk k) line s.quiet).2.stdout ++ str "\n% " ++
          transcript junk (k + 1) rest (executeCommand (junk k) line s.quiet).2

section
variable (s : FS) (out : List UInt8)

lemma quiet_behind_stdout : s.quiet.behind s.stdout = s := by
  unfold FS.quiet FS.behind
  dsimp only
  rw [List.append_nil]

lemma quiet_behind : (s.behind out).quiet = s.quiet := rfl

lemma printf_quiet_behind (text : List UInt8) :
    printf (s.quiet.behind out) text = s.quiet.behind (out ++ text) := by
  unfold printf FS.quiet FS.behind
  dsimp only
  rw [List.append_nil, List.append_nil]

/-- A command behind other output. -/
lemma executeCommand_quiet (junk : Junk) (line : Line) :
    (executeCommand junk line (s.quiet.behind out)).2 =
      (executeCommand junk line s.quiet).2.quiet.behind
        (out ++ (executeCommand junk line s.quiet).2.stdout) := by
  have hprints : executeCommand junk line (s.quiet.behind out) =
    after out (executeCommand junk line s.quiet) := executeCommand_behind junk line _ _
  rw [hprints]
  unfold after
  dsimp only
  rw [← behind_behind, quiet_behind_stdout]

lemma runCommands_behind (lines : List (Junk × Line)) :
    runCommands lines (s.behind out) = (runCommands lines s).behind out := by
  induction lines generalizing s with
  | nil => rfl
  | cons l lines ih =>
    have hcons : ∀ s, runCommands (l :: lines) s =
      runCommands lines (executeCommand l.1 l.2 s).2 := fun s => rfl
    have hprints : executeCommand l.1 l.2 (s.behind out) = after out (executeCommand l.1 l.2 s) :=
      executeCommand_behind l.1 l.2 _ _
    rw [hcons, hcons, hprints]
    exact ih _

lemma runCommands_quiet (lines : List (Junk × Line)) :
    (runCommands lines s.quiet).quiet = (runCommands lines s).quiet := by
  have hrun := runCommands_behind s.quiet s.stdout lines
  rw [quiet_behind_stdout] at hrun
  rw [hrun, quiet_behind]

end

lemma commands_eq_none_iff (inputs : List Text) : commands inputs = none ↔ Overruns inputs := by
  constructor
  · intro h
    induction inputs with
    | nil => cases h
    | cons input rest ih =>
      rw [commands] at h
      cases hturn : turn input with
      | overflow => exact ⟨[], input, rest, rfl, nofun, hturn⟩
      | quit =>
        rw [hturn] at h
        cases h
      | command line =>
        rw [hturn] at h
        obtain ⟨before, bad, after, rfl, hbefore, hbad⟩ := ih (Option.map_eq_none_iff.mp h)
        exact ⟨input :: before, bad, after, rfl,
          List.forall_mem_cons.mpr ⟨⟨line, hturn⟩, hbefore⟩, hbad⟩
  · rintro ⟨before, input, rest, rfl, hbefore, hbad⟩
    induction before with
    | nil => rw [List.nil_append, commands, hbad]
    | cons i before ih =>
      obtain ⟨⟨line, hturn⟩, hbefore⟩ := List.forall_mem_cons.mp hbefore
      rw [List.cons_append, commands, hturn]
      exact Option.map_eq_none_iff.mpr (ih hbefore)

/-- Where no line runs over, all commands are run. -/
lemma executed_eq {inputs : List Text} {lines : List Line} (h : commands inputs = some lines) :
    executed inputs = lines := by
  induction inputs generalizing lines with
  | nil => exact Option.some.inj h
  | cons input rest ih =>
    rw [commands] at h
    rw [executed]
    cases hturn : turn input with
    | overflow =>
      rw [hturn] at h
      cases h
    | quit =>
      rw [hturn] at h
      exact Option.some.inj h
    | command line =>
      rw [hturn] at h
      obtain ⟨lines', hrest, rfl⟩ := Option.map_eq_some_iff.mp h
      dsimp only
      rw [ih hrest]

/-- The loop runs the commands one after the other, and prints in between. -/
lemma mainLoop_eq (junk : ℕ → Junk) (k : ℕ) (inputs : List Text) (s : FS) (out : List UInt8) :
    mainLoop junk k inputs (s.quiet.behind out) = (commands inputs).map fun lines =>
      (runCommands (withJunk junk k lines) s).quiet.behind (out ++ transcript junk k inputs s) := by
  induction inputs generalizing k s out with
  | nil =>
    unfold mainLoop commands transcript
    rw [List.append_nil]
    rfl
  | cons input rest ih =>
    unfold mainLoop commands transcript
    dsimp only
    rw [printf_quiet_behind]
    cases turn input with
    | overflow => rfl
    | quit =>
      dsimp only
      rw [List.append_nil]
      rfl
    | command line =>
      dsimp only
      rw [executeCommand_quiet, printf_quiet_behind, ih, Option.map_map]
      apply congrFun (congrArg Option.map _)
      funext lines
      have hrun : runCommands (withJunk junk k (line :: lines)) s.quiet =
          runCommands (withJunk junk (k + 1) lines) (executeCommand (junk k) line s.quiet).2 := rfl
      dsimp only [Function.comp]
      rw [← runCommands_quiet s, hrun]
      simp only [List.append_assoc]

end OsProjects.FileSys
