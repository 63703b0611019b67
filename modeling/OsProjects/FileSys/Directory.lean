import OsProjects.FileSys.Machine

/-!
# `directory.c`

As for files, a command returns its return value and the file system afterwards.
-/

namespace OsProjects.FileSys

def dirMake (junk : Junk) (name : List UInt8) (s : FS) : ℤ × FS :=
  if command name (str ".") ∨ command name (str "..") then
    (-1, printf s (str "Directory create failed: cannot create with name . or ..\n"))
  else if searchCurDir s name ≥ 0 then
    (-1, printf s (str "Directory create failed: " ++ name ++ str " exist.\n"))
  else if s.curDir.full then
    (-1, printf s (str "Directory create failed: current directory is full!\n"))
  else if s.superBlock.freeInodeCount.toInt < 1 then
    (-1, printf s (str "Directory create failed: inode is full!\n"))
  else
    let (inodeNum, s) := getInode s
    -- unlike the inode, the block is not checked for
    let (newBlock, s) := getBlock s
    let newInode := { junk.inode with
      type := .directory
      size := 1
      blockCount := 1
      directBlock := Function.update junk.inode.directBlock 0 (Int32.ofInt newBlock)
      linkCount := 1 }
    let s := writeInode s inodeNum newInode
    let ret := searchCurDir s (str ".")
    if ret = -1 then (-1, printf s (str "Error: there is no .\n"))
    else
      let newDir :=
        ({ junk.dir with numEntry := 0 } : Dentry).add (str ".") inodeNum |>.add (str "..") ret
      let s := writeDiskBlock s newBlock newDir.toBlock
      (0, { s with curDir := s.curDir.add name inodeNum })

def dirRemove (junk : Junk) (name : List UInt8) (s : FS) : ℤ × FS :=
  if command name (str ".") ∨ command name (str "..") then
    (-1, printf s (str "Directory remove failed: cannot remove . or ..\n"))
  else
    let ret := searchCurDir s name
    if ret = -1 then (-1, printf s (str "Directory remove failed: no such directory\n"))
    else
      let node := readInode s ret
      if node.type ≠ .directory then
        (-1, printf s (str "Directory remove failed: not a directory\n"))
      else
        -- read from the disk also when the directory is the current one
        let (s, dir) := readDiskBlock s (node.direct 0) junk.dir.toBlock
        if (Dentry.ofBlock dir).numEntry ≠ 2 then
          (-1, printf s (str "Directory remove failed: directory is not empty\n"))
        else
          let node := { node with linkCount := node.linkCount - 1 }
          let s := writeInode s ret node
          let s :=
            if node.linkCount.toInt ≤ 0 then freeInode (freeBlock s (node.direct 0)) ret else s
          (0, { s with curDir := s.curDir.remove name })

def dirChange (name : List UInt8) (s : FS) : ℤ × FS :=
  let ret := searchCurDir s name
  if ret = -1 then (-1, printf s (str "Directory change failed: no such directory\n"))
  else
    let node := readInode s ret
    if node.type ≠ .directory then
      (-1, printf s (str "Directory change failed: not a directory\n"))
    else
      let s := writeDiskBlock s s.curDirBlock s.curDir.toBlock
      let s := { s with curDirBlock := node.direct 0 }
      let (s, dir) := readDiskBlock s s.curDirBlock s.curDir.toBlock
      (0, { s with curDir := Dentry.ofBlock dir })

/-- The line of `ls` for an entry. -/
def lsLine (s : FS) (e : DirectoryEntry) : List UInt8 :=
  let targetInode := readInode s e.inode.toInt
  (if targetInode.type = .file then str "type: file, " else str "type: dir, ") ++
    str "name \"" ++ e.cstr ++ str "\", inode " ++ decimal e.inode.toInt ++
    str ", size " ++ decimal targetInode.size.toInt ++ str " byte\n"

def ls (s : FS) : ℤ × FS :=
  (0, (List.range s.curDir.count).foldl (fun s i => printf s (lsLine s (s.curDir.entry i))) s)

end OsProjects.FileSys
