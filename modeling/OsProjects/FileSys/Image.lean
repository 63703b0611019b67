import OsProjects.FileSys.ChangeDir

/-!
# The disk image: `fs_umount`, and `fs_mount` of a disk that exists

The superblock, the bitmaps and the inodes are written to the first 131 blocks as
they lie in memory, and read back from there.
-/

namespace OsProjects.FileSys
open CInt

/-! ## Structures as bytes -/

/-- `(char*) &superBlock` -/
def SuperBlock.toBlock (sb : SuperBlock) : Block := fun k =>
  if k.val < 4 then byte sb.magicNumber k
  else if k.val < 8 then byte sb.freeBlockCount (k - 4)
  else if k.val < 12 then byte sb.freeInodeCount (k - 8)
  else if k.val < 16 then byte sb.rootDirInode (k - 12)
  else if h : k.val - 16 < 496 then sb.padding ⟨k.val - 16, h⟩ else 0

def SuperBlock.ofBlock (b : Block) : SuperBlock where
  magicNumber := b.intAt 0
  freeBlockCount := b.intAt 4
  freeInodeCount := b.intAt 8
  rootDirInode := b.intAt 12
  padding := fun k => b.byteAt (16 + k)

/-- The value of the enumeration.  Nothing else is ever written. -/
def TYPE.toInt32 : TYPE → Int32
  | .file => 0
  | .directory => 1

def TYPE.ofInt32 (v : Int32) : TYPE := if v = 0 then .file else .directory

/-- The `int`s at the front of an inode. -/
def Inode.word (n : Inode) (k : ℕ) : Int32 :=
  if k = 0 then n.type.toInt32
  else if k = 1 then n.size
  else if k = 2 then n.blockCount
  else if h : k - 3 < 15 then n.directBlock ⟨k - 3, h⟩
  else if k = 18 then n.indirectBlock
  else n.linkCount

/-- The byte `k` of an inode. -/
def Inode.byteAt (n : Inode) (k : ℕ) : UInt8 :=
  if k < 80 then byte (n.word (k / 4)) (k % 4)
  else if h : k - 80 < 48 then n.padding ⟨k - 80, h⟩ else 0

/-- `(char*) (inode + first)`, as one block: four inodes of 128 bytes -/
def inodesToBlock (inode : ℤ → Inode) (first : ℤ) : Block := fun k =>
  (inode (first + (k.val / 128 : ℕ))).byteAt (k % 128)

/-- The inode at an offset in a block. -/
def Inode.ofBlock (b : Block) (offset : ℕ) : Inode where
  type := TYPE.ofInt32 (b.intAt offset)
  size := b.intAt (offset + 4)
  blockCount := b.intAt (offset + 8)
  directBlock := fun i => b.intAt (offset + 12 + 4 * i)
  indirectBlock := b.intAt (offset + 72)
  linkCount := b.intAt (offset + 76)
  padding := fun i => b.byteAt (offset + 80 + i)

/-- A bitmap of `size` bytes as one block, with what lies behind it in memory. -/
def mapToBlock (size : ℕ) (map : ℤ → Int8) (behind : ℕ → UInt8) : Block := fun k =>
  if k.val < size then (map k.val).toUInt8 else behind k

/-- The bitmap of `size` bytes that a block is read into.  The rest of the block goes to the memory
behind a smaller array and is left out here. -/
def mapOfBlock (size : ℕ) (map : ℤ → Int8) (b : Block) : ℤ → Int8 := fun k =>
  if 0 ≤ k ∧ k < size then (b.byteAt k.toNat).toInt8 else map k

/-! ## `fs_umount` -/

/-- One turn of the loop over the inode blocks. -/
def saveInodes (s : FS) (i : ℕ) : FS := writeDiskBlock s (i + 3) (inodesToBlock s.inode (4 * i))

/-- `fs_umount`: the disk afterwards is what `disk_umount` writes to the file. -/
def fsUmount (junk : Junk) (s : FS) : FS :=
  let s := writeDiskBlock s 0 s.superBlock.toBlock
  let s := writeDiskBlock s 1 (mapToBlock (maxInode / 8) s.inodeMap junk.mem)
  let s := writeDiskBlock s 2 (mapToBlock (maxBlock / 8) s.blockMap junk.mem)
  let s := (List.range numInodeBlock).foldl saveInodes s
  writeDiskBlock s s.curDirBlock s.curDir.toBlock

/-! ## `fs_mount` -/

/-- One turn of the loop over the inode blocks. -/
def loadInodes (s : FS) (i : ℕ) : FS :=
  let (s, block) := readDiskBlock s (i + 3) (inodesToBlock s.inode (4 * i))
  { s with inode := fun j =>
      if 4 * (i : ℤ) ≤ j ∧ j < 4 * i + 4 then Inode.ofBlock block (128 * (j - 4 * i).toNat)
      else s.inode j }

/-- `fs_mount` of a file with that contents, in a new process.  Without the magic number the process
ends. -/
def fsMount (file : ℤ → Block) : Option FS :=
  let s := { FS.zero with disk := file }
  let (s, block) := readDiskBlock s 0 s.superBlock.toBlock
  let s := { s with superBlock := SuperBlock.ofBlock block }
  if s.superBlock.magicNumber ≠ 0x1234FFFF then none
  else
    let (s, block) := readDiskBlock s 1 (mapToBlock (maxInode / 8) s.inodeMap fun _ => 0)
    let s := { s with inodeMap := mapOfBlock (maxInode / 8) s.inodeMap block }
    let (s, block) := readDiskBlock s 2 (mapToBlock (maxBlock / 8) s.blockMap fun _ => 0)
    let s := { s with blockMap := mapOfBlock (maxBlock / 8) s.blockMap block }
    let s := (List.range numInodeBlock).foldl loadInodes s
    let s := { s with curDirBlock := (s.inode 0).direct 0 }
    let (s, block) := readDiskBlock s s.curDirBlock s.curDir.toBlock
    some { s with curDir := Dentry.ofBlock block }

/-! ## What is read is what was written -/

lemma intAt_eq {b : Block} {k : ℕ} {v : Int32} (h : ∀ i < 4, b.byteAt (k + i) = byte v i) :
    b.intAt k = v := ofBytes_eq h

lemma SuperBlock.ofBlock_toBlock (sb : SuperBlock) : SuperBlock.ofBlock sb.toBlock = sb := by
  have hbyte : ∀ k (h : k < 512), sb.toBlock.byteAt k = sb.toBlock ⟨k, h⟩ := fun k h =>
    byteAt_of_lt _ h
  have hmagic : sb.toBlock.intAt 0 = sb.magicNumber := intAt_eq fun i hi => by
    rw [hbyte _ (by omega)]
    unfold toBlock
    dsimp only
    rw [if_pos (by omega), Nat.zero_add]
  have hblocks : sb.toBlock.intAt 4 = sb.freeBlockCount := intAt_eq fun i hi => by
    rw [hbyte _ (by omega)]
    unfold toBlock
    dsimp only
    rw [if_neg (by omega), if_pos (by omega), Nat.add_sub_cancel_left]
  have hinodes : sb.toBlock.intAt 8 = sb.freeInodeCount := intAt_eq fun i hi => by
    rw [hbyte _ (by omega)]
    unfold toBlock
    dsimp only
    rw [if_neg (by omega), if_neg (by omega), if_pos (by omega), Nat.add_sub_cancel_left]
  have hroot : sb.toBlock.intAt 12 = sb.rootDirInode := intAt_eq fun i hi => by
    rw [hbyte _ (by omega)]
    unfold toBlock
    dsimp only
    rw [if_neg (by omega), if_neg (by omega), if_neg (by omega), if_pos (by omega),
      Nat.add_sub_cancel_left]
  have hpadding : ∀ k : Fin 496, sb.toBlock.byteAt (16 + k) = sb.padding k := by
    intro k
    have hk := k.isLt
    have hsub : 16 + k.val - 16 = k.val := by omega
    rw [hbyte _ (by omega)]
    unfold toBlock
    dsimp only
    rw [if_neg (by omega), if_neg (by omega), if_neg (by omega), if_neg (by omega),
      dif_pos (by omega)]
    simp only [hsub]
  simp only [ofBlock, hmagic, hblocks, hinodes, hroot, hpadding]

lemma TYPE.ofInt32_toInt32 (t : TYPE) : TYPE.ofInt32 t.toInt32 = t := by
  cases t
  · rfl
  · exact if_neg (by decide)

lemma byteAt_inodesToBlock (inode : ℤ → Inode) (first : ℤ) {j k : ℕ} (hj : j < 4) (hk : k < 128) :
    (inodesToBlock inode first).byteAt (128 * j + k) = (inode (first + j)).byteAt k := by
  have hdiv : (128 * j + k) / 128 = j := by omega
  have hmod : (128 * j + k) % 128 = k := by omega
  rw [byteAt_of_lt _ (by simp only [blockSize]; omega)]
  unfold inodesToBlock
  simp only [hdiv, hmod]

/-- The words of an inode are read back. -/
lemma intAt_inodesToBlock (inode : ℤ → Inode) (first : ℤ) {j k : ℕ} (hj : j < 4) (hk : k < 20) :
    (inodesToBlock inode first).intAt (128 * j + 4 * k) = (inode (first + j)).word k := by
  apply intAt_eq
  intro i hi
  have hdiv : (4 * k + i) / 4 = k := by omega
  have hmod : (4 * k + i) % 4 = i := by omega
  rw [Nat.add_assoc, byteAt_inodesToBlock _ _ hj (by omega), Inode.byteAt, if_pos (by omega), hdiv,
    hmod]

lemma Inode.ofBlock_inodesToBlock (inode : ℤ → Inode) (first : ℤ) {j : ℕ} (hj : j < 4) :
    Inode.ofBlock (inodesToBlock inode first) (128 * j) = inode (first + j) := by
  have hword := fun k => @intAt_inodesToBlock inode first j k hj
  have htype : (inodesToBlock inode first).intAt (128 * j) = (inode (first + j)).type.toInt32 :=
    hword 0 (by decide)
  have hsize : (inodesToBlock inode first).intAt (128 * j + 4) = (inode (first + j)).size :=
    hword 1 (by decide)
  have hcount : (inodesToBlock inode first).intAt (128 * j + 8) = (inode (first + j)).blockCount :=
    hword 2 (by decide)
  have hdirect : ∀ i : Fin 15, (inodesToBlock inode first).intAt (128 * j + 12 + 4 * i) =
      (inode (first + j)).directBlock i := by
    intro i
    have hi := i.isLt
    have hsum : 128 * j + 12 + 4 * i.val = 128 * j + 4 * (3 + i.val) := by omega
    have hsub : 3 + i.val - 3 = i.val := by omega
    rw [hsum, hword _ (by omega)]
    unfold word
    rw [if_neg (by omega), if_neg (by omega), if_neg (by omega), dif_pos (by omega)]
    simp only [hsub]
  have hindirect : (inodesToBlock inode first).intAt (128 * j + 72) =
      (inode (first + j)).indirectBlock := hword 18 (by decide)
  have hlink : (inodesToBlock inode first).intAt (128 * j + 76) = (inode (first + j)).linkCount :=
    hword 19 (by decide)
  have hpadding : ∀ i : Fin 48, (inodesToBlock inode first).byteAt (128 * j + 80 + i) =
      (inode (first + j)).padding i := by
    intro i
    have hi := i.isLt
    have hsub : 80 + i.val - 80 = i.val := by omega
    rw [Nat.add_assoc, byteAt_inodesToBlock _ _ hj (by omega)]
    unfold byteAt
    rw [if_neg (by omega), dif_pos (by omega)]
    simp only [hsub]
  simp only [ofBlock, htype, hsize, hcount, hdirect, hindirect, hlink, hpadding,
    TYPE.ofInt32_toInt32]

lemma mapOfBlock_mapToBlock {size : ℕ} (hsize : size ≤ 512) (map map' : ℤ → Int8)
    (behind : ℕ → UInt8) {k : ℤ} (h0 : 0 ≤ k) (hk : k < size) :
    mapOfBlock size map' (mapToBlock size map behind) k = map k := by
  have hcast : (k.toNat : ℤ) = k := Int.toNat_of_nonneg h0
  unfold mapOfBlock
  rw [if_pos ⟨h0, hk⟩, byteAt_of_lt _ (by simp only [blockSize]; omega)]
  unfold mapToBlock
  rw [if_pos (by dsimp only; omega)]
  dsimp only
  rw [hcast]
  exact Int8.toInt8_toUInt8 _

end OsProjects.FileSys
