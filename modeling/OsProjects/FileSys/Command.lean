import OsProjects.FileSys.File
import OsProjects.FileSys.Directory

/-!
# `execute_command` and runs of the simulator

`main` reads at most three words from a line.  The last two are arguments, and
an argument that is missing is the empty string.
-/

namespace OsProjects.FileSys

/-- What `main` finds in `arg1` and `arg2`, arrays of 16 bytes. -/
structure Word where
  text : List UInt8
  length_le : text.length ≤ 15
  ne_zero : 0 ∉ text

/-- A word that is a string literal. -/
def Word.of (text : String) (hlength : (str text).length ≤ 15 := by decide)
    (hne : 0 ∉ str text := by decide) : Word := ⟨str text, hlength, hne⟩

def Word.none : Word := Word.of ""
def Word.dot : Word := Word.of "."
def Word.one : Word := Word.of "1"
def Word.a : Word := Word.of "a"
def Word.ab : Word := Word.of "ab"
def Word.xb : Word := Word.of "xb"
def Word.d : Word := Word.of "d"
def Word.e : Word := Word.of "e"
def Word.x : Word := Word.of "x"

/-- A command as `main` has scanned it. -/
structure Line where
  comm : List UInt8
  arg1 : Word
  arg2 : Word
  numArg : ℤ

/-- The digits at the front of a text as a number. -/
def digits (text : List UInt8) : ℤ :=
  (text.takeWhile fun c => 48 ≤ c ∧ c ≤ 57).foldl (fun z c => 10 * z + (c.toNat - 48)) 0

/-- `atoi`, for a text without white space. -/
def atoi (text : List UInt8) : Int32 :=
  Int32.ofInt <|
    if text.head? = some 45 then -digits text.tail
    else if text.head? = some 43 then digits text.tail
    else digits text

def fsStat (junk : Junk) (s : FS) : ℤ × FS :=
  (junk.ret, printf s (str "File System Status: \n" ++
    str "# of free blocks: " ++ decimal s.superBlock.freeBlockCount.toInt ++
    str " (" ++ decimal (s.superBlock.freeBlockCount * 512).toInt ++
    str " bytes), # of free inodes: " ++ decimal s.superBlock.freeInodeCount.toInt ++ str "\n"))

/-- `execute_command`, without its output to `stderr`. -/
def executeCommand (junk : Junk) (line : Line) (s : FS) : ℤ × FS :=
  let { comm, arg1, arg2, numArg } := line
  if command comm (str "create") then
    if numArg < 2 then (-1, printf s (str "error: create <filename> <size>\n"))
    else fileCreate junk arg1.text (atoi arg2.text) s
  else if command comm (str "cat") then
    if numArg < 1 then (-1, printf s (str "error: cat <filename>\n"))
    else fileCat junk arg1.text s
  else if command comm (str "rm") then
    if numArg < 1 then (-1, printf s (str "error: rm <filename>\n"))
    else fileRemove junk arg1.text s
  else if command comm (str "mkdir") then
    if numArg < 1 then (-1, printf s (str "error: mkdir <dirname>\n"))
    else dirMake junk arg1.text s
  else if command comm (str "rmdir") then
    if numArg < 1 then (-1, printf s (str "error: rmdir <dirname>\n"))
    else dirRemove junk arg1.text s
  else if command comm (str "cd") then
    if numArg < 1 then (-1, printf s (str "error: cd <dirname>\n"))
    else dirChange arg1.text s
  else if command comm (str "ls") then ls s
  else if command comm (str "stat") then
    if numArg < 1 then (-1, printf s (str "error: stat <filename>\n"))
    else fileStat junk arg1.text s
  else if command comm (str "df") then fsStat junk s
  else if command comm (str "ln") then
    if numArg < 2 then (-1, printf s (str "error: ln <src> <dest>\n"))
    else hardLink arg1.text arg2.text s
  else if command comm (str "cp") then
    if numArg < 2 then (-1, printf s (str "error: cp <src> <dest>\n"))
    else fileCopy junk arg1.text arg2.text s
  else (-1, s)

/-- Memory that happens to be zero. -/
def Junk.zero : Junk where
  inode := FS.zero.inode 0
  dir := FS.zero.curDir
  ints := fun _ => 0
  mem := fun _ => 0
  rand := fun _ => 0
  ret := 0

/-- The file system after some commands.  Each finds its own junk. -/
def runCommands (lines : List (Junk × Line)) (s : FS) : FS :=
  lines.foldl (fun s (junk, line) => (executeCommand junk line s).2) s

end OsProjects.FileSys
