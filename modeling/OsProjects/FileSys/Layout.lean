import OsProjects.Library.CInt

/-!
# The structures of `fs.h`

A disk block is 512 bytes.  Directories and lists of block numbers are copied to
and from blocks as they lie in memory.
-/

namespace OsProjects.FileSys
open CInt

/-- `BLOCK_SIZE`, `MAX_BLOCK`, `MAX_INODE` and `MAX_DIR_ENTRY` -/
def blockSize : ℕ := 512
def maxBlock : ℕ := 4096
def maxInode : ℕ := 512
def maxDirEntry : ℕ := 21

abbrev Block := Fin blockSize → UInt8

def Block.byteAt (b : Block) (k : ℕ) : UInt8 := if h : k < blockSize then b ⟨k, h⟩ else 0

/-- The `int` at the offset `k`. -/
def Block.intAt (b : Block) (k : ℕ) : Int32 := ofBytes fun i => b.byteAt (k + i)

inductive TYPE
  | file
  | directory
  deriving DecidableEq

structure SuperBlock where
  magicNumber : Int32
  freeBlockCount : Int32
  freeInodeCount : Int32
  rootDirInode : Int32
  padding : Fin 496 → UInt8

instance neZero_directBlock : NeZero 15 := ⟨by decide⟩

structure Inode where
  type : TYPE
  size : Int32
  blockCount : Int32
  directBlock : Fin 15 → Int32
  indirectBlock : Int32
  linkCount : Int32
  padding : Fin 48 → UInt8

/-- `directBlock[i]` -/
def Inode.direct (n : Inode) (i : ℕ) : ℤ :=
  if h : i < 15 then (n.directBlock ⟨i, h⟩).toInt else 0

structure DirectoryEntry where
  name : Fin 20 → UInt8
  inode : Int32

instance : Inhabited DirectoryEntry := ⟨⟨fun _ => 0, 0⟩⟩

/-- The name as a C string.  Without a NUL it runs on into the bytes of the inode number; the
upper ones of these are zero. -/
def DirectoryEntry.cstr (e : DirectoryEntry) : List UInt8 :=
  (List.ofFn e.name ++ [byte e.inode 0, byte e.inode 1, byte e.inode 2, byte e.inode 3]).takeWhile
    (· ≠ 0)

structure Dentry where
  numEntry : Int32
  dentry : Fin maxDirEntry → DirectoryEntry
  padding : Fin 4 → UInt8

/-- `dentry[i]` -/
def Dentry.entry (d : Dentry) (i : ℕ) : DirectoryEntry :=
  if h : i < maxDirEntry then d.dentry ⟨i, h⟩ else default

def Dentry.setEntry (d : Dentry) (i : ℕ) (e : DirectoryEntry) : Dentry :=
  { d with dentry := fun j => if j.val = i then e else d.dentry j }

/-- The number of turns of a loop up to `numEntry`. -/
def Dentry.count (d : Dentry) : ℕ := d.numEntry.toInt.toNat

/-- `(char*) &d` -/
def Dentry.toBlock (d : Dentry) : Block := fun k =>
  if k.val < 4 then byte d.numEntry k
  else if h : k.val < 508 then
    let e := d.entry ((k - 4) / 24)
    if h : (k.val - 4) % 24 < 20 then e.name ⟨(k.val - 4) % 24, h⟩
    else byte e.inode ((k - 4) % 24 - 20)
  else d.padding ⟨k.val - 508, by have := k.isLt; simp only [blockSize] at this; omega⟩

/-- `*(Dentry*) b` -/
def Dentry.ofBlock (b : Block) : Dentry where
  numEntry := b.intAt 0
  dentry := fun i =>
    { name := fun k => b.byteAt (4 + 24 * i + k)
      inode := b.intAt (4 + 24 * i + 20) }
  padding := fun k => b.byteAt (508 + k)

/-- `(char*) ints` for an `int ints[128]` -/
def intsToBlock (ints : Fin 128 → Int32) : Block := fun k =>
  byte (ints ⟨k.val / 4, by have := k.isLt; simp only [blockSize] at this; omega⟩) (k % 4)

/-- `((int*) b)[i]` -/
def intOfBlock (b : Block) (i : ℕ) : Int32 := b.intAt (4 * i)

lemma byteAt_of_lt (b : Block) {k : ℕ} (h : k < blockSize) : b.byteAt k = b ⟨k, h⟩ := dif_pos h

lemma intOfBlock_intsToBlock (ints : Fin 128 → Int32) {i : ℕ} (hi : i < 128) :
    intOfBlock (intsToBlock ints) i = ints ⟨i, hi⟩ := by
  rw [intOfBlock, Block.intAt]
  apply ofBytes_eq
  intro k hk
  rw [byteAt_of_lt _ (by simp only [blockSize]; omega)]
  have hdiv : (4 * i + k) / 4 = i := by omega
  have hmod : (4 * i + k) % 4 = k := by omega
  simp only [intsToBlock, hdiv, hmod]

lemma Dentry.ofBlock_toBlock (d : Dentry) : Dentry.ofBlock d.toBlock = d := by
  have hnum : d.toBlock.intAt 0 = d.numEntry := by
    apply ofBytes_eq
    intro k hk
    rw [Nat.zero_add, byteAt_of_lt _ (by simp only [blockSize]; omega)]
    exact if_pos hk
  have hname : ∀ (i : Fin maxDirEntry) (k : Fin 20),
      d.toBlock.byteAt (4 + 24 * i + k) = (d.dentry i).name k := by
    intro i k
    have hi : i.val < 21 := i.isLt
    have hk := k.isLt
    have hdiv : (4 + 24 * i.val + k.val - 4) / 24 = i.val := by omega
    have hmod : (4 + 24 * i.val + k.val - 4) % 24 = k.val := by omega
    rw [byteAt_of_lt _ (by simp only [blockSize]; omega)]
    simp only [toBlock, hdiv, hmod]
    rw [if_neg (by omega), dif_pos (by omega), dif_pos hk, Dentry.entry, dif_pos i.isLt]
  have hinode : ∀ i : Fin maxDirEntry,
      d.toBlock.intAt (4 + 24 * i + 20) = (d.dentry i).inode := by
    intro i
    have hi : i.val < 21 := i.isLt
    apply ofBytes_eq
    intro k hk
    have hdiv : (4 + 24 * i.val + 20 + k - 4) / 24 = i.val := by omega
    have hmod : (4 + 24 * i.val + 20 + k - 4) % 24 = 20 + k := by omega
    rw [byteAt_of_lt _ (by simp only [blockSize]; omega)]
    simp only [toBlock, hdiv, hmod]
    rw [if_neg (by omega), dif_pos (by omega), dif_neg (by omega), Dentry.entry, dif_pos i.isLt,
      Nat.add_sub_cancel_left]
  have hpadding : ∀ k : Fin 4, d.toBlock.byteAt (508 + k) = d.padding k := by
    intro k
    have hk := k.isLt
    rw [byteAt_of_lt _ (by simp only [blockSize]; omega)]
    simp only [toBlock]
    rw [if_neg (by omega), dif_neg (by omega)]
    have hsub : 508 + k.val - 508 = k.val := by omega
    simp only [hsub]
  simp only [ofBlock, hnum, hname, hinode, hpadding]

/-- All 512 bytes of a block belong to the directory. -/
lemma Dentry.toBlock_ofBlock (b : Block) : (Dentry.ofBlock b).toBlock = b := by
  have hbyte : ∀ (k i : ℕ), i < 4 → byte (b.intAt k) i = b.byteAt (k + i) := fun k i hi =>
    byte_ofBytes _ hi
  funext k
  have hk : k.val < 512 := k.isLt
  have hself : b.byteAt k.val = b k := byteAt_of_lt b k.isLt
  simp only [toBlock, ofBlock]
  split_ifs with hnum hentry hname
  · rw [hbyte _ _ hnum, Nat.zero_add, hself]
  · rw [Dentry.entry, dif_pos (by simp only [maxDirEntry]; omega)]
    have hsum : 4 + 24 * ((k.val - 4) / 24) + (k.val - 4) % 24 = k.val := by omega
    simp only [hsum, hself]
  · rw [Dentry.entry, dif_pos (by simp only [maxDirEntry]; omega)]
    have hsum : 4 + 24 * ((k.val - 4) / 24) + 20 + ((k.val - 4) % 24 - 20) = k.val := by omega
    rw [hbyte _ _ (by omega), ← hself]
    exact congrArg b.byteAt hsum
  · have hsum : 508 + (k.val - 508) = k.val := by omega
    rw [← hself]
    exact congrArg b.byteAt hsum

end OsProjects.FileSys
