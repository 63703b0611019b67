import OsProjects.FileSys.Machine

/-!
# `file.c`

A command returns its return value and the file system afterwards.
-/

namespace OsProjects.FileSys

/-! ## `file_cat` -/

/-- `printf("%s", buf)` for a buffer of 513 bytes. -/
def printBuf (s : FS) (buf : ℕ → UInt8) : FS :=
  printf s (((List.range (blockSize + 1)).map buf).takeWhile (· ≠ 0))

/-- One turn of the loops of `file_cat`: the file system, the buffer and `f_size`. -/
def catBlock : FS × (ℕ → UInt8) × ℤ → ℤ → FS × (ℕ → UInt8) × ℤ :=
  fun (s, buf, fSize) block =>
    let (s, data) := readDiskBlock s block fun k => buf k
    let buf := fun k => if h : k < blockSize then data ⟨k, h⟩ else buf k
    let buf :=
      if fSize ≥ 512 then Function.update buf 512 0
      else Function.update buf (fSize + 1).toNat 0
    (printBuf s buf, buf, fSize - 512)

def fileCat (junk : Junk) (name : List UInt8) (s : FS) : ℤ × FS :=
  let ret := searchCurDir s name
  if ret = -1 then (-1, printf s (str "File cat failed: file does not exist\n"))
  else
    let fileInode := readInode s ret
    let size := fileInode.blockCount.toInt.toNat
    let (s, buf, fSize) :=
      ((List.range (min 15 size)).map fileInode.direct).foldl catBlock
        (s, junk.mem, fileInode.size.toInt)
    if size > 15 then
      let (s, indirBuf) := readDiskBlock s fileInode.indirectBlock.toInt junk.buf
      let (s, _) :=
        ((List.range (size - 15)).map fun i => (intOfBlock indirBuf i).toInt).foldl catBlock
          (s, buf, fSize)
      (0, s)
    else (0, s)

/-! ## `file_remove` -/

/-- The blocks of a file whose last link is removed, and its inode. -/
def freeFile (junk : Junk) (s : FS) (inodeNum : ℤ) (fileInode : Inode) : FS :=
  let size := fileInode.blockCount.toInt.toNat
  let s := ((List.range (min 15 size)).map fileInode.direct).foldl freeBlock s
  let s :=
    if size > 15 then
      let indirP := fileInode.indirectBlock.toInt
      let (s, indirBuf) := readDiskBlock s indirP junk.buf
      let s :=
        ((List.range (size - 15)).map fun i => (intOfBlock indirBuf i).toInt).foldl freeBlock s
      freeBlock s indirP
    else s
  freeInode s inodeNum

def fileRemove (junk : Junk) (name : List UInt8) (s : FS) : ℤ × FS :=
  let ret := searchCurDir s name
  if ret = -1 then (-1, printf s (str "File remove failed: file does not exist\n"))
  else
    let fileInode := readInode s ret
    if fileInode.type ≠ .file then (-1, printf s (str "File remove failed: not a file\n"))
    else
      let fileInode := { fileInode with linkCount := fileInode.linkCount - 1 }
      let s := writeInode s ret fileInode
      let s := if fileInode.linkCount.toInt ≤ 0 then freeFile junk s ret fileInode else s
      (0, { s with curDir := s.curDir.remove name })

/-! ## `hard_link` -/

def hardLink (src dest : List UInt8) (s : FS) : ℤ × FS :=
  let ret := searchCurDir s src
  if ret = -1 then (-1, printf s (str "Hard link create failed: src file does not exist\n"))
  else if s.curDir.full then
    (-1, printf s (str "Hard link create failed: directory is full!\n"))
  else
    let fileInode := readInode s ret
    let s := writeInode s ret { fileInode with linkCount := fileInode.linkCount + 1 }
    (0, { s with curDir := s.curDir.add dest ret })

/-! ## `file_copy` and `file_create` -/

/-- `n` turns of a loop that takes a block, fetches the contents of block `i` of the file into
`buf` and writes them.  The result is `none` if `get_block` fails. -/
def allocBlocks (fetch : ℕ → FS → Block → FS × Block) :
    ℕ → ℕ → FS × Block → Option (List ℤ) × FS × Block
  | 0, _, st => (some [], st)
  | n + 1, i, (s, buf) =>
    let (block, s) := getBlock s
    if block = -1 then (none, s, buf)
    else
      let (s, buf) := fetch i s buf
      let s := writeDiskBlock s block buf
      let (blocks, st) := allocBlocks fetch n (i + 1) (s, buf)
      (blocks.map (block :: ·), st)

/-- The array `a` with the first places filled. -/
def fillInts {n : ℕ} (a : Fin n → Int32) (blocks : List ℤ) : Fin n → Int32 :=
  fun i => match blocks[i.val]? with
    | some block => Int32.ofInt block
    | none => a i

/-- The data blocks of a new inode: first the direct ones, then, for a size above 7680, the
indirect block and those listed in it.  `fetchIndirect` reads the indirect block of the source,
if there is one. -/
def fillFile (junk : Junk) (failed : List UInt8) (newInode : Inode)
    (fetch : ℕ → FS → Block → FS × Block) (fetchIndirect : FS → FS × (ℕ → FS → Block → FS × Block))
    (s : FS) : Option Inode × FS :=
  let numBlock := newInode.blockCount.toInt.toNat
  let (direct, s, buf) := allocBlocks fetch (min 15 numBlock) 0 (s, junk.buf)
  match direct with
  | none => (none, printf s failed)
  | some direct =>
    let newInode := { newInode with directBlock := fillInts junk.inode.directBlock direct }
    if newInode.size.toInt > (7680 : ℤ) then
      let (block, s) := getBlock s
      if block = -1 then (none, printf s failed)
      else
        let newInode := { newInode with indirectBlock := Int32.ofInt block }
        let (s, fetch) := fetchIndirect s
        let (indirect, s, _) := allocBlocks fetch (numBlock - 15) 15 (s, buf)
        match indirect with
        | none => (none, printf s failed)
        | some indirect =>
          (some newInode, writeDiskBlock s block (intsToBlock (fillInts junk.ints indirect)))
    else (some newInode, s)

def fileCopy (junk : Junk) (src dest : List UInt8) (s : FS) : ℤ × FS :=
  let ret := searchCurDir s src
  if ret = -1 then (-1, printf s (str "File copy failed: src file does not exist\n"))
  else if s.curDir.full then (-1, printf s (str "File copy failed: directory is full!\n"))
  else if s.superBlock.freeInodeCount.toInt < 1 then
    (-1, printf s (str "File copy failed: inode is full!\n"))
  else
    let fileInode := readInode s ret
    if fileInode.type ≠ .file then (-1, printf s (str "File copy failed: not a file\n"))
    else if (if fileInode.size.toInt > 7680 then fileInode.blockCount + 1
        else fileInode.blockCount).toInt > s.superBlock.freeBlockCount.toInt then
      (-1, printf s (str "File copy failed: data block is full!\n"))
    else
      let (inodeNum, s) := getInode s
      if inodeNum < 0 then (-1, printf s (str "File copy error: not enough inode.\n"))
      else
        let newInode := { junk.inode with
          type := .file
          size := fileInode.size
          blockCount := fileInode.blockCount
          linkCount := 1 }
        let s := { s with curDir := s.curDir.add dest inodeNum }
        let fetch := fun i s buf => readDiskBlock s (fileInode.direct i) buf
        let fetchIndirect := fun s =>
          let (s, indirBuf) := readDiskBlock s fileInode.indirectBlock.toInt junk.buf
          (s, fun i s buf => readDiskBlock s (intOfBlock indirBuf (i - 15)).toInt buf)
        match fillFile junk (str "File copy error: get_block failed\n") newInode fetch fetchIndirect
            s with
        | (none, s) => (-1, s)
        | (some newInode, s) => (0, writeInode s inodeNum newInode)

/-- `tmp + i * BLOCK_SIZE`, as one block -/
def tmpBlock (junk : Junk) (content : List UInt8) (i : ℕ) : Block :=
  fun k => (content ++ [0]).getD (i * blockSize + k) (junk.mem (i * blockSize + k))

def fileCreate (junk : Junk) (name : List UInt8) (size : Int32) (s : FS) : ℤ × FS :=
  if size.toInt ≤ 0 ∨ size.toInt > 73216 then
    (-1, printf s (str "File create failed: file size error\n"))
  else if searchCurDir s name ≥ 0 then
    (-1, printf s (str "File create failed:  " ++ name ++ str " exist.\n"))
  else if s.curDir.full then (-1, printf s (str "File create failed: directory is full!\n"))
  else if s.superBlock.freeInodeCount.toInt < 1 then
    (-1, printf s (str "File create failed: inode is full!\n"))
  else
    let numBlock := size.toInt / blockSize + if size.toInt % blockSize > 0 then 1 else 0
    if (if size.toInt > 7680 then numBlock + 1 else numBlock) >
        s.superBlock.freeBlockCount.toInt then
      (-1, printf s (str "File create failed: data block is full!\n"))
    else
      let tmp := randString junk size.toInt.toNat
      let s := printf s (str "File contents:\n" ++ tmp ++ str "\n")
      let (inodeNum, s) := getInode s
      if inodeNum < 0 then (-1, printf s (str "File_create error: not enough inode.\n"))
      else
        let newInode := { junk.inode with
          type := .file
          size := size
          blockCount := Int32.ofInt numBlock
          linkCount := 1 }
        let s := { s with curDir := s.curDir.add name inodeNum }
        let fetch := fun i s (_ : Block) => (s, tmpBlock junk tmp i)
        match fillFile junk (str "File_create error: get_block failed\n") newInode fetch
            (fun s => (s, fetch)) s with
        | (none, s) => (-1, s)
        | (some newInode, s) =>
          (0, printf (writeInode s inodeNum newInode)
            (str "File created. name: " ++ name ++ str ", inode: " ++ decimal inodeNum ++
              str ", size: " ++ decimal size.toInt ++ str "\n"))

/-! ## `file_stat` -/

def fileStat (junk : Junk) (name : List UInt8) (s : FS) : ℤ × FS :=
  let inodeNum := searchCurDir s name
  if inodeNum < 0 then (-1, printf s (str "file cat error: file is not exist.\n"))
  else
    let targetInode := readInode s inodeNum
    (junk.ret, printf s (str "Inode = " ++ decimal inodeNum ++ str "\n" ++
      (if targetInode.type = .file then str "type = file\n" else str "type = directory\n") ++
      str "size = " ++ decimal targetInode.size.toInt ++ str "\n" ++
      str "linkCount = " ++ decimal targetInode.linkCount.toInt ++ str "\n" ++
      str "num of block = " ++ decimal targetInode.blockCount.toInt ++ str "\n"))

end OsProjects.FileSys
