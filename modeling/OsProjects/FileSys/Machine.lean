import OsProjects.FileSys.Layout
import OsProjects.FileSys.Bitmap
import OsProjects.Library.FirstFit

/-!
# The file system in memory: `fs_util.c`, `disk.c` and `fs.c`

Arrays are functions of the index.  An index outside of an array is an error of
the program that C leaves open; the functions then have some value or other.
What the program prints is collected in `stdout`.
-/

namespace OsProjects.FileSys
open FirstFit

/-- The text of a string literal. -/
def str (s : String) : List UInt8 := s.toList.map fun c => UInt8.ofNat c.toNat

/-- `%d` -/
def decimal (z : ℤ) : List UInt8 := str (toString z)

/-- The globals. -/
structure FS where
  superBlock : SuperBlock
  inodeMap : ℤ → Int8
  blockMap : ℤ → Int8
  inode : ℤ → Inode
  disk : ℤ → Block
  curDir : Dentry
  curDirBlock : ℤ
  stdout : List UInt8

def printf (s : FS) (text : List UInt8) : FS := { s with stdout := s.stdout ++ text }

/-- What uninitialised locals and fresh memory hold during a command, the numbers `rand` returns,
and the value of a function that ends without `return`. -/
structure Junk where
  inode : Inode
  dir : Dentry
  ints : Fin 128 → Int32
  mem : ℕ → UInt8
  rand : ℕ → ℕ
  ret : ℤ

/-- A `malloc`ed buffer as `read_disk_block` sees it. -/
def Junk.buf (junk : Junk) : Block := fun k => junk.mem k

/-! ## `fs_util.c` -/

def charset : List UInt8 := str "abcdefghijklmnopqrstuvwxyzABCDEFGHIJKLMNOPQRSTUVWXYZ0123456789"

/-- `rand_string`, without the NUL. -/
def randString (junk : Junk) (size : ℕ) : List UInt8 :=
  (List.range size).map fun n => charset.getD (junk.rand n % 62) 0

def getInodeMap (s : FS) (index : ℤ) : Bool := decide (getBit s.inodeMap index ≠ 0)

def getBlockMap (s : FS) (index : ℤ) : Bool := decide (getBit s.blockMap index ≠ 0)

def setInodeMap (s : FS) (index : ℤ) (value : Bool) : FS :=
  { s with inodeMap := setBit s.inodeMap index (if value then 1 else 0) }

def setBlockMap (s : FS) (index : ℤ) (value : Bool) : FS :=
  { s with blockMap := setBit s.blockMap index (if value then 1 else 0) }

def addFreeInodes (s : FS) (n : Int32) : FS :=
  { s with superBlock := { s.superBlock with freeInodeCount := s.superBlock.freeInodeCount + n } }

def addFreeBlocks (s : FS) (n : Int32) : FS :=
  { s with superBlock := { s.superBlock with freeBlockCount := s.superBlock.freeBlockCount + n } }

def getInode (s : FS) : ℤ × FS :=
  match firstFree (getInodeMap s) maxInode 0 with
  | some i => (i, addFreeInodes (setInodeMap s i true) (-1))
  | none => (-1, s)

def freeInode (s : FS) (inodeNum : ℤ) : FS :=
  if getInodeMap s inodeNum then addFreeInodes (setInodeMap s inodeNum false) 1 else s

def getBlock (s : FS) : ℤ × FS :=
  match firstFree (getBlockMap s) maxBlock 0 with
  | some i => (i, addFreeBlocks (setBlockMap s i true) (-1))
  | none => (-1, s)

def freeBlock (s : FS) (blockNum : ℤ) : FS :=
  if getBlockMap s blockNum then addFreeBlocks (setBlockMap s blockNum false) 1 else s

/-! ## `disk.c` -/

/-- The buffer afterwards; on an error it keeps its contents. -/
def readDiskBlock (s : FS) (block : ℤ) (buf : Block) : FS × Block :=
  if block < 0 ∨ block ≥ maxBlock then (printf s (str "disk_read error\n"), buf)
  else (s, s.disk block)

def writeDiskBlock (s : FS) (block : ℤ) (buf : Block) : FS :=
  if block < 0 ∨ block ≥ maxBlock then printf s (str "disk_write error\n")
  else { s with disk := Function.update s.disk block buf }

/-! ## `fs.c` -/

def readInode (s : FS) (inodeNum : ℤ) : Inode := s.inode inodeNum

def writeInode (s : FS) (inodeNum : ℤ) (newInode : Inode) : FS :=
  { s with inode := Function.update s.inode inodeNum newInode }

/-- `command` of `fs_sim.c`: equality of strings. -/
def command (comm comm2 : List UInt8) : Bool :=
  comm.length == comm2.length && comm.take comm.length == comm2.take comm.length

/-- The index of the first entry of that name. -/
def Dentry.find (d : Dentry) (name : List UInt8) : Option ℕ :=
  (List.range d.count).find? fun i => command name (d.entry i).cstr

def searchCurDir (s : FS) (name : List UInt8) : ℤ :=
  match s.curDir.find name with
  | some i => (s.curDir.entry i).inode.toInt
  | none => -1

/-- `strncpy(name, src, strlen(src))`: no NUL is written. -/
def strncpy (name : Fin 20 → UInt8) (src : List UInt8) : Fin 20 → UInt8 :=
  fun k => src.getD k (name k)

/-- A new entry at the end of the directory. -/
def Dentry.add (d : Dentry) (name : List UInt8) (inode : ℤ) : Dentry :=
  let e := d.entry d.count
  let e :=
    { name := fun k => if k.val = name.length then 0 else strncpy e.name name k
      inode := Int32.ofInt inode }
  { d.setEntry d.count e with numEntry := d.numEntry + 1 }

/-- `curDir.numEntry + 1 > MAX_DIR_ENTRY`; the right side is unsigned, and so is the comparison. -/
def Dentry.full (d : Dentry) : Bool :=
  decide ((d.numEntry + 1).toInt < 0 ∨ (d.numEntry + 1).toInt > maxDirEntry)

/-- The entries from `i` on move down by one, `n` of them.  Names are copied without their NUL. -/
def Dentry.shift (d : Dentry) (i : ℕ) : ℕ → Dentry
  | 0 => d
  | n + 1 =>
    let e :=
      { name := strncpy (d.entry i).name (d.entry (i + 1)).cstr
        inode := (d.entry (i + 1)).inode }
    (d.setEntry i e).shift (i + 1) n

/-- The end of `file_remove` and of `dir_remove`: the first entry of that name goes. -/
def Dentry.remove (d : Dentry) (name : List UInt8) : Dentry :=
  let i := (d.find name).getD d.count
  let d := d.shift i (d.count - 1 - i)
  { d with numEntry := d.numEntry - 1 }

/-- The globals before `fs_mount`. -/
def FS.zero : FS where
  superBlock := ⟨0, 0, 0, 0, fun _ => 0⟩
  inodeMap := fun _ => 0
  blockMap := fun _ => 0
  inode := fun _ => ⟨.file, 0, 0, fun _ => 0, 0, 0, fun _ => 0⟩
  disk := fun _ _ => 0
  curDir := ⟨0, fun _ => default, fun _ => 0⟩
  curDirBlock := 0
  stdout := []

/-- `sizeof(Inode) * MAX_INODE / BLOCK_SIZE` -/
def numInodeBlock : ℕ := 128

/-- The superblock and the bitmaps of a new file system. -/
def fsInit : FS :=
  let s := FS.zero
  let superBlock := { s.superBlock with
    magicNumber := 0x1234FFFF
    freeBlockCount := Int32.ofInt (maxBlock - (1 + 1 + 1 + numInodeBlock))
    freeInodeCount := Int32.ofInt maxInode
    rootDirInode := 0 }
  -- the loops go over the bytes, and so over an eighth of the bits
  let inodeMap := (List.range (maxInode / 8)).foldl (fun m (i : ℕ) => setBit m i 0) s.inodeMap
  let blockMap := (List.range (maxBlock / 8)).foldl
    (fun m (i : ℕ) => setBit m i (if i < 1 + 1 + 1 + numInodeBlock then 1 else 0)) s.blockMap
  { s with superBlock := superBlock, inodeMap := inodeMap, blockMap := blockMap }

/-- The root directory of a new file system. -/
def initRoot (s : FS) : FS :=
  let (rootInode, s) := getInode s
  let (block, s) := getBlock s
  let root := { s.inode rootInode with
    type := .directory
    size := 1
    blockCount := 1
    directBlock := Function.update (s.inode rootInode).directBlock 0 (Int32.ofInt block) }
  let curDir := ({ s.curDir with numEntry := 0 }).add (str ".") rootInode
  let s := { writeInode s rootInode root with curDirBlock := block, curDir := curDir }
  writeDiskBlock s s.curDirBlock s.curDir.toBlock

/-- `fs_mount` when there is no disk file of that name. -/
def fsMountNew : FS := initRoot fsInit

end OsProjects.FileSys
