import OsProjects.Library.Stdio

/-!
# Answering a request: `process` in `net.c`

A string is the list of its characters before the terminating `'\0'`.  The file
system is what `stat`, `fopen` and `readdir` say.  Dates and the lines printed to
the server's own terminal are left out.
-/

namespace OsProjects.WebServer
open Stdio

/-- What a C program may not do with its buffers. -/
inductive Fault
  /-- the use of a value that was never set -/
  | indeterminate
  /-- a write behind the end of an array -/
  | overflow
  deriving DecidableEq

/-- The part of `struct stat` that is looked at. -/
inductive Stat
  /-- a regular file, of `st_size` bytes -/
  | file (size : ℕ)
  | directory
  /-- a device, a pipe or a socket -/
  | special
  deriving DecidableEq

structure FileSystem where
  stat : Text → Option Stat
  /-- `fopen(path, "r")` does not return `NULL` -/
  fopen : Text → Bool
  readdir : Text → List Text

/-! ## Library functions -/

/-- The next token and what follows the delimiter behind it. -/
def strtok (delim : Char) (s : Text) : Option (Text × Text) :=
  match s.dropWhile (· = delim) with
  | [] => none
  | c :: cs => some ((c :: cs).takeWhile (· ≠ delim), ((c :: cs).dropWhile (· ≠ delim)).drop 1)

/-- `strcasecmp` returns 0. -/
def sameIgnoringCase (s t : Text) : Prop := s.map Char.toLower = t.map Char.toLower

instance (s t : Text) : Decidable (sameIgnoringCase s t) :=
  inferInstanceAs (Decidable (s.map Char.toLower = t.map Char.toLower))

/-- `getcwd` into a buffer, which is left as it is when the directory does not fit. -/
def getcwd (size : ℕ) (cwd : Text) : Except Fault Text :=
  if cwd.length < size then .ok cwd else .error .indeterminate

def sprintf (size : ℕ) (s : Text) : Except Fault Text :=
  if s.length < size then .ok s else .error .overflow

def snprintf (size : ℕ) (s : Text) : Text := s.take (size - 1)

/-! ## The answers -/

/-- The headers other than `Server`, the dates and `Connection`. -/
structure Headers where
  status : ℕ
  title : String
  extra : Option Text
  mime : Option String
  /-- `Content-Length` -/
  length : Option Int32
  deriving DecidableEq

inductive Body
  | page (status : ℕ) (title text : String)
  | file (path : Text)
  /-- the names in a directory, those of directories marked, below a link to the parent -/
  | listing (path : Text) (parent : Bool) (rows : List (Text × Bool))
  deriving DecidableEq

structure Reply where
  headers : Headers
  body : Body
  deriving DecidableEq

/-- From the last `'.'` on. -/
def extension (name : Text) : Option Text :=
  if '.' ∈ name then some ('.' :: (name.reverse.takeWhile (· ≠ '.')).reverse) else none

def getMimeType (name : Text) : Option String :=
  match extension name with
  | none => none
  | some ext =>
    if ext = ".html".toList ∨ ext = ".htm".toList then some "text/html"
    else if ext = ".jpg".toList ∨ ext = ".jpeg".toList then some "image/jpeg"
    else if ext = ".gif".toList then some "image/gif"
    else if ext = ".png".toList then some "image/png"
    else if ext = ".css".toList then some "text/css"
    else if ext = ".au".toList then some "audio/basic"
    else if ext = ".wav".toList then some "audio/wav"
    else if ext = ".avi".toList then some "video/x-msvideo"
    else if ext = ".mpeg".toList ∨ ext = ".mpg".toList then some "video/mpeg"
    else if ext = ".mp3".toList then some "audio/mpeg"
    else none

def sendHeaders (status : ℕ) (title : String) (extra : Option Text) (mime : Option String)
    (length : Int32) : Headers :=
  { status := status
    title := title
    extra := extra
    mime := mime
    length := if 0 ≤ length then some length else none }

def sendError (status : ℕ) (title : String) (extra : Option Text) (text : String) : Reply :=
  { headers := sendHeaders status title extra (some "text/html") (-1)
    body := .page status title text }

/-- `S_ISREG(statbuf->st_mode) ? statbuf->st_size : -1` as an `int` -/
def Stat.length : Stat → Int32
  | .file size => .ofInt size
  | _ => -1

def sendFile (fs : FileSystem) (path : Text) (statbuf : Stat) : Reply :=
  if fs.fopen path then
    { headers := sendHeaders 200 "OK" none (getMimeType path) statbuf.length
      body := .file path }
  else sendError 403 "Forbidden" none "Access denied."

/-! ## Requests -/

/-- `method`, `_path` and `protocol`. -/
def requestLine (input : Text) : Option (Text × Text × Text) := do
  let (buf, _) ← fgets 4096 input
  let (method, rest) ← strtok ' ' (cstr buf)
  let (_path, rest) ← strtok ' ' rest
  let (protocol, _) ← strtok '\r' rest
  some (method, _path, protocol)

/-- The path in the file system that a request for `_path` stands for. -/
def requestPath (cwd _path : Text) : Except Fault Text := do
  let cwd ← getcwd 1024 cwd
  sprintf 4096 (cwd ++ _path)

/-- The loop over the entries of a directory.  `statbuf` keeps its value where `stat` fails. -/
def listRows (fs : FileSystem) (path : Text) : Stat → List Text → Except Fault (List (Text × Bool))
  | _, [] => .ok []
  | statbuf, name :: names => do
    let pathbuf ← sprintf 4096 (path ++ name)
    let statbuf := (fs.stat pathbuf).getD statbuf
    let rows ← listRows fs path statbuf names
    .ok ((name, decide (statbuf = .directory)) :: rows)

inductive Outcome
  /-- the thread ends itself -/
  | terminated
  /-- `process` returns -1 -/
  | closed
  | replied (reply : Reply)
  deriving DecidableEq

/-- `crash` is the option `CRASH`, `random` what `rand` returns. -/
def process (crash : ℤ) (random : ℕ) (fs : FileSystem) (cwd input : Text) :
    Except Fault Outcome :=
  if 0 < crash ∧ (random : ℤ) % 100 < crash then .ok .terminated
  else
    match requestLine input with
    | none => .ok .closed
    | some (method, _path, _) => do
      let path ← requestPath cwd _path
      if ¬ sameIgnoringCase method "GET".toList then
        .ok (.replied (sendError 501 "Not supported" none "Method is not supported."))
      else
        match fs.stat path with
        | none => .ok (.replied (sendError 404 "Not Found" none "File not found."))
        | some .directory =>
          if path.getLast? ≠ some '/' then
            let pathbuf := snprintf 4096 ("Location: ".toList ++ path ++ "/".toList)
            .ok (.replied
              (sendError 302 "Found" (some pathbuf) "Directories must end with a slash."))
          else
            let pathbuf := snprintf 4096 (cwd ++ path ++ "index.html".toList)
            match fs.stat pathbuf with
            | some statbuf => .ok (.replied (sendFile fs pathbuf statbuf))
            | none => do
              let rows ← listRows fs path .directory (fs.readdir path)
              .ok (.replied
                { headers := sendHeaders 200 "OK" none (some "text/html") (-1)
                  body := .listing path (decide (1 < path.length)) rows })
        | some statbuf => .ok (.replied (sendFile fs path statbuf))

end OsProjects.WebServer
