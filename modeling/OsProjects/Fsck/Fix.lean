import OsProjects.FileSys.Mount

/-!
# `fix.c`: `fsck`

The file system it repairs is the one of `fs.h`, and the functions of `fs_util.c`,
`disk.c` and `fs.c` that it calls are the same ones.  Indices that decide how the
loop goes on are checked: where C would read or write outside of an array, the
model stops with a fault.
-/

namespace OsProjects.Fsck
open FileSys FirstFit

/-- `int dir[5000]` -/
def dirSize : ℤ := 5000

inductive Fault
  | endless
  | outOfBounds
  deriving DecidableEq

/-- `helper`, with the uninitialised `indir_map` as far as one block reaches. -/
def helper (indirMap : Block) (s : FS) (file : Inode) : FS :=
  let s := (List.range (min file.blockCount.toInt.toNat 15)).foldl
    (fun s j => setBlockMap s (file.direct j) true) s
  if file.blockCount.toInt > 15 then
    let s := setBlockMap s file.indirectBlock.toInt true
    let (s, indirMap) := readDiskBlock s file.indirectBlock.toInt indirMap
    (List.range (file.blockCount.toInt - 15).toNat).foldl
      (fun s j => setBlockMap s (intOfBlock indirMap j).toInt true) s
  else s

/-- The globals, and the locals of `correct` that the loops share. -/
structure Locals where
  fs : FS
  dir : ℤ → ℤ
  dirP : ℤ
  den : Dentry

/-- `dir[++dir_p] = inode` -/
def push (w : Locals) (inode : ℤ) : Except Fault Locals :=
  if w.dirP + 1 < dirSize then
    .ok { w with dir := Function.update w.dir (w.dirP + 1) inode, dirP := w.dirP + 1 }
  else .error .outOfBounds

/-- Whether the entry is put on the stack. -/
def isChild (s : FS) (e : DirectoryEntry) : Bool :=
  !(command e.cstr (str ".") || command e.cstr (str "..")) &&
    decide ((readInode s e.inode.toInt).type = .directory)

/-- One turn of the `for` loop over the entries. -/
def visitEntry (indirMap : Block) (w : Locals) (i : ℕ) : Except Fault Locals :=
  if i ≥ maxDirEntry then .error .outOfBounds
  else
    let e := w.den.entry i
    if e.inode.toInt < 0 ∨ e.inode.toInt ≥ maxInode then .error .outOfBounds
    else do
      let n := readInode w.fs e.inode.toInt
      let w ← if isChild w.fs e then push w e.inode.toInt else .ok w
      let fs := helper indirMap w.fs n
      .ok { w with fs := setInodeMap fs e.inode.toInt true }

/-- One turn of the `while` loop. -/
def visitDir (indirMap : Block) (w : Locals) : Except Fault Locals :=
  let x := w.dir w.dirP
  if x < 0 ∨ x ≥ maxInode then .error .outOfBounds
  else
    let d := (readInode w.fs x).direct 0
    let (fs, block) := readDiskBlock w.fs d w.den.toBlock
    let w := { w with fs := fs, dirP := w.dirP - 1, den := Dentry.ofBlock block }
    (List.range w.den.count).foldlM (visitEntry indirMap) w

def whileLoop (indirMap : Block) : ℕ → Locals → Except Fault Locals
  | 0, _ => .error .endless
  | fuel + 1, w =>
    if w.dirP ≥ 0 then do
      let w ← visitDir indirMap w
      whileLoop indirMap fuel w
    else .ok w

/-- `i_count` and `b_count`: the clear bits among the first `n` -/
def countClear (map : ℤ → Int8) (n : ℕ) : ℕ :=
  (List.range n).countP fun (i : ℕ) => getBit map i == 0

/-- The maps are cleared, and set to those of a new file system. -/
def clearMaps (s : FS) : FS :=
  let blockMap := (List.range maxBlock).foldl (fun m (i : ℕ) => setBit m i 0) s.blockMap
  let inodeMap := (List.range maxInode).foldl (fun m (i : ℕ) => setBit m i 0) s.inodeMap
  let inodeMap := (List.range (maxInode / 8)).foldl (fun m (i : ℕ) => setBit m i 0) inodeMap
  let blockMap := (List.range (maxBlock / 8)).foldl
    (fun m (i : ℕ) => setBit m i (if i < 1 + 1 + 1 + numInodeBlock then 1 else 0)) blockMap
  { s with inodeMap := inodeMap, blockMap := blockMap }

/-- The counters of the superblock are those of the maps. -/
def countersAgree (s : FS) : Bool :=
  decide ((countClear s.blockMap maxBlock : ℤ) = s.superBlock.freeBlockCount.toInt ∧
    (countClear s.inodeMap maxInode : ℤ) = s.superBlock.freeInodeCount.toInt)

lemma countClear_eq (map : ℤ → Int8) (n : ℕ) : countClear map n = freeCount (bitAt map) n := by
  unfold countClear freeCount
  induction n with
  | zero => rfl
  | succ n ih =>
    have hsplit : Finset.Ico (0 : ℤ) (n + 1 : ℕ) = insert (n : ℤ) (Finset.Ico 0 (n : ℤ)) := by
      ext k
      rw [Finset.mem_insert, Finset.mem_Ico, Finset.mem_Ico]
      omega
    have hnew : (n : ℤ) ∉ (Finset.Ico (0 : ℤ) n).filter fun i => bitAt map i = false := by
      intro h
      rw [Finset.mem_filter, Finset.mem_Ico] at h
      omega
    rw [List.range_succ, List.countP_append, ih, hsplit, Finset.filter_insert,
      List.countP_singleton, getBit_eq]
    cases hbit : bitAt map n with
    | false =>
      rw [if_pos rfl, Finset.card_insert_of_notMem hnew]
      rfl
    | true => rfl

lemma countersAgree_iff (s : FS) :
    countersAgree s = true ↔ InodesCounted s ∧ BlocksCounted s := by
  unfold countersAgree InodesCounted BlocksCounted
  rw [decide_eq_true_eq, countClear_eq, countClear_eq, and_comm, eq_comm (a := (_ : ℤ)),
    eq_comm (b := s.superBlock.freeBlockCount.toInt)]

/-- The locals before the `while` loop. -/
def startLocals (junk : Junk) (s : FS) : Locals where
  fs := clearMaps s
  dir := Function.update (fun _ => junk.ret) 0 s.superBlock.rootDirInode.toInt
  dirP := 0
  den := junk.dir

def correct (junk : Junk) (fuel : ℕ) (s : FS) : Except Fault FS :=
  if countersAgree s then .ok s
  else do
    let w ← whileLoop junk.buf fuel (startLocals junk s)
    .ok w.fs

end OsProjects.Fsck
