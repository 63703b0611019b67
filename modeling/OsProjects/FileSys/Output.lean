import OsProjects.FileSys.Command
import OsProjects.FileSys.Image

/-!
# What is printed has no influence

A command that runs behind other output prints what it would have printed without, and does the
same to the file system.
-/

namespace OsProjects.FileSys
open FirstFit

/-- The same file system, behind this output. -/
def FS.behind (s : FS) (out : List UInt8) : FS := { s with stdout := out ++ s.stdout }

section
variable (s : FS) (out : List UInt8)

@[simp] lemma behind_superBlock : (s.behind out).superBlock = s.superBlock := rfl

@[simp] lemma behind_inodeMap : (s.behind out).inodeMap = s.inodeMap := rfl

@[simp] lemma behind_blockMap : (s.behind out).blockMap = s.blockMap := rfl

@[simp] lemma behind_inode : (s.behind out).inode = s.inode := rfl

@[simp] lemma behind_curDir : (s.behind out).curDir = s.curDir := rfl

@[simp] lemma behind_curDirBlock : (s.behind out).curDirBlock = s.curDirBlock := rfl

@[simp] lemma behind_stdout : (s.behind out).stdout = out ++ s.stdout := rfl

lemma behind_behind (out' : List UInt8) : (s.behind out).behind out' = s.behind (out' ++ out) := by
  unfold FS.behind
  dsimp only
  rw [List.append_assoc]

/-- A result behind this output. -/
def after {α : Type} (out : List UInt8) (r : α × FS) : α × FS := (r.1, r.2.behind out)

lemma after_mk {α : Type} (out : List UInt8) (a : α) (s : FS) :
    after out (a, s) = (a, s.behind out) := rfl

/-- A function that prints, and nothing of it depends on what has been printed before. -/
def Prints {α : Type} (f : FS → α × FS) : Prop := ∀ s out, f (s.behind out) = after out (f s)

/-! ## `fs_util.c` and `disk.c` -/

@[simp] lemma printf_behind (text : List UInt8) :
    printf (s.behind out) text = (printf s text).behind out := by
  unfold printf FS.behind
  dsimp only
  rw [List.append_assoc]

@[simp] lemma writeInode_behind (i : ℤ) (n : Inode) :
    writeInode (s.behind out) i n = (writeInode s i n).behind out := rfl

@[simp] lemma readInode_behind (i : ℤ) : readInode (s.behind out) i = readInode s i := rfl

@[simp] lemma searchCurDir_behind (name : List UInt8) :
    searchCurDir (s.behind out) name = searchCurDir s name := rfl

@[simp] lemma setInodeMap_behind (i : ℤ) (v : Bool) :
    setInodeMap (s.behind out) i v = (setInodeMap s i v).behind out := rfl

@[simp] lemma setBlockMap_behind (b : ℤ) (v : Bool) :
    setBlockMap (s.behind out) b v = (setBlockMap s b v).behind out := rfl

@[simp] lemma addFreeInodes_behind (n : Int32) :
    addFreeInodes (s.behind out) n = (addFreeInodes s n).behind out := rfl

@[simp] lemma addFreeBlocks_behind (n : Int32) :
    addFreeBlocks (s.behind out) n = (addFreeBlocks s n).behind out := rfl

lemma getInode_behind : Prints getInode := by
  intro s out
  have hmap : getInodeMap (s.behind out) = getInodeMap s := rfl
  unfold getInode
  rw [hmap]
  cases firstFree (getInodeMap s) maxInode 0 with
  | none => exact (after_mk out _ s).symm
  | some i =>
    dsimp only
    rw [setInodeMap_behind, addFreeInodes_behind, after_mk]

lemma getBlock_behind : Prints getBlock := by
  intro s out
  have hmap : getBlockMap (s.behind out) = getBlockMap s := rfl
  unfold getBlock
  rw [hmap]
  cases firstFree (getBlockMap s) maxBlock 0 with
  | none => exact (after_mk out _ s).symm
  | some b =>
    dsimp only
    rw [setBlockMap_behind, addFreeBlocks_behind, after_mk]

@[simp] lemma freeInode_behind (i : ℤ) :
    freeInode (s.behind out) i = (freeInode s i).behind out := by
  have hmap : getInodeMap (s.behind out) i = getInodeMap s i := rfl
  unfold freeInode
  rw [hmap]
  split_ifs
  · rfl
  · rfl

@[simp] lemma freeBlock_behind (b : ℤ) :
    freeBlock (s.behind out) b = (freeBlock s b).behind out := by
  have hmap : getBlockMap (s.behind out) b = getBlockMap s b := rfl
  unfold freeBlock
  rw [hmap]
  split_ifs
  · rfl
  · rfl

@[simp] lemma readDiskBlock_behind (b : ℤ) (buf : Block) :
    readDiskBlock (s.behind out) b buf =
      ((readDiskBlock s b buf).1.behind out, (readDiskBlock s b buf).2) := by
  unfold readDiskBlock
  split_ifs
  · rw [printf_behind]
  · rfl

@[simp] lemma writeDiskBlock_behind (b : ℤ) (buf : Block) :
    writeDiskBlock (s.behind out) b buf = (writeDiskBlock s b buf).behind out := by
  unfold writeDiskBlock
  split_ifs
  · exact printf_behind s out _
  · rfl

lemma ite_behind {c : Prop} [Decidable c] {r₁ r₁' r₂ r₂' : ℤ × FS} (h₁ : r₁' = after out r₁)
    (h₂ : r₂' = after out r₂) :
    (if c then r₁' else r₂') = after out (if c then r₁ else r₂) := by
  rw [h₁, h₂, apply_ite (after out)]

/-- A check that prints why it refuses. -/
lemma check_behind {c : Prop} [Decidable c] (text : List UInt8) {r r' : ℤ × FS}
    (h : r' = after out r) :
    (if c then (-1, printf (s.behind out) text) else r') =
      after out (if c then (-1, printf s text) else r) := by
  apply ite_behind out _ h
  rw [printf_behind, after_mk]

/-- A loop of such functions. -/
lemma foldl_behind {α : Type} {f : FS → α → FS}
    (hf : ∀ s out a, f (s.behind out) a = (f s a).behind out) (l : List α) :
    l.foldl f (s.behind out) = (l.foldl f s).behind out := by
  induction l generalizing s with
  | nil => rfl
  | cons a l ih => rw [List.foldl_cons, List.foldl_cons, hf, ih]

end

/-! ## `file.c` -/

section File
variable (s : FS) (out : List UInt8)

lemma catBlock_behind (st : FS × (ℕ → UInt8) × ℤ) (b : ℤ) :
    catBlock (st.1.behind out, st.2) b =
      ((catBlock st b).1.behind out, (catBlock st b).2) := by
  obtain ⟨s, buf, size⟩ := st
  unfold catBlock printBuf
  dsimp only
  rw [readDiskBlock_behind]
  dsimp only
  rw [printf_behind]

lemma foldl_catBlock_behind (l : List ℤ) (st : FS × (ℕ → UInt8) × ℤ) :
    l.foldl catBlock (st.1.behind out, st.2) =
      ((l.foldl catBlock st).1.behind out, (l.foldl catBlock st).2) := by
  induction l generalizing st with
  | nil => rfl
  | cons b l ih => rw [List.foldl_cons, List.foldl_cons, catBlock_behind, ih]

lemma fileCat_behind (junk : Junk) (name : List UInt8) : Prints (fileCat junk name) := by
  intro s out
  have hloop := fun (s : FS) l buf => foldl_catBlock_behind out l (s, buf)
  dsimp only at hloop
  unfold fileCat
  simp only [searchCurDir_behind, readInode_behind, hloop, readDiskBlock_behind, printf_behind]
  split_ifs
  · rfl
  · rfl
  · rfl

lemma freeFile_behind (junk : Junk) (i : ℤ) (n : Inode) :
    freeFile junk (s.behind out) i n = (freeFile junk s i n).behind out := by
  have hfold := fun (s : FS) l => foldl_behind s out freeBlock_behind l
  unfold freeFile
  dsimp only
  rw [hfold]
  split_ifs
  · rw [readDiskBlock_behind]
    dsimp only
    rw [hfold, freeBlock_behind, freeInode_behind]
  · rw [freeInode_behind]

lemma fileRemove_behind (junk : Junk) (name : List UInt8) : Prints (fileRemove junk name) := by
  intro s out
  unfold fileRemove
  simp only [searchCurDir_behind, readInode_behind, writeInode_behind, freeFile_behind,
    printf_behind]
  split_ifs
  · rfl
  · rfl
  · rfl
  · rfl

lemma hardLink_behind (src dest : List UInt8) : Prints (hardLink src dest) := by
  intro s out
  unfold hardLink
  simp only [searchCurDir_behind, readInode_behind, writeInode_behind, behind_curDir, printf_behind]
  split_ifs
  · rfl
  · rfl
  · rfl

/-- What a loop over blocks gets for them. -/
lemma allocBlocks_behind {fetch : ℕ → FS → Block → FS × Block}
    (hfetch : ∀ i s buf, fetch i (s.behind out) buf =
      ((fetch i s buf).1.behind out, (fetch i s buf).2)) (n i : ℕ) (buf : Block) :
    allocBlocks fetch n i (s.behind out, buf) = ((allocBlocks fetch n i (s, buf)).1,
      (allocBlocks fetch n i (s, buf)).2.1.behind out, (allocBlocks fetch n i (s, buf)).2.2) := by
  induction n generalizing i s buf with
  | zero => rfl
  | succ n ih =>
    have hblock : getBlock (s.behind out) = after out (getBlock s) := getBlock_behind s out
    unfold allocBlocks
    rw [hblock]
    unfold after
    dsimp only
    by_cases hnone : (getBlock s).1 = -1
    · rw [if_pos hnone, if_pos hnone]
    · rw [if_neg hnone, if_neg hnone, hfetch]
      dsimp only
      rw [writeDiskBlock_behind, ih]

lemma fillFile_behind (junk : Junk) (failed : List UInt8) (n : Inode)
    {fetch : ℕ → FS → Block → FS × Block} {fetchIndirect : FS → FS × (ℕ → FS → Block → FS × Block)}
    (hfetch : ∀ i s buf, fetch i (s.behind out) buf =
      ((fetch i s buf).1.behind out, (fetch i s buf).2))
    (hindirect : ∀ s, fetchIndirect (s.behind out) =
      ((fetchIndirect s).1.behind out, (fetchIndirect s).2))
    (hfetch' : ∀ s₀ i s buf, (fetchIndirect s₀).2 i (s.behind out) buf =
      (((fetchIndirect s₀).2 i s buf).1.behind out, ((fetchIndirect s₀).2 i s buf).2)) :
    fillFile junk failed n fetch fetchIndirect (s.behind out) =
      after out (fillFile junk failed n fetch fetchIndirect s) := by
  unfold fillFile
  dsimp only
  rw [allocBlocks_behind s out hfetch]
  generalize allocBlocks fetch (min 15 n.blockCount.toInt.toNat) 0 (s, junk.buf) = r
  obtain ⟨direct, s₁, buf⟩ := r
  cases direct with
  | none =>
    dsimp only
    rw [printf_behind]
    rfl
  | some direct =>
    dsimp only
    by_cases hsize : n.size.toInt > 7680
    · rw [if_pos hsize, if_pos hsize, getBlock_behind]
      unfold after
      dsimp only
      by_cases hnone : (getBlock s₁).1 = -1
      · rw [if_pos hnone, if_pos hnone, printf_behind]
      · rw [if_neg hnone, if_neg hnone, hindirect]
        dsimp only
        rw [allocBlocks_behind _ out (hfetch' _)]
        generalize allocBlocks (fetchIndirect (getBlock s₁).2).2 (n.blockCount.toInt.toNat - 15) 15
          ((fetchIndirect (getBlock s₁).2).1, buf) = r
        obtain ⟨indirect, s₂, buf'⟩ := r
        cases indirect with
        | none =>
          dsimp only
          rw [printf_behind]
        | some indirect =>
          dsimp only
          rw [writeDiskBlock_behind]
    · rw [if_neg hsize, if_neg hsize]
      rfl

lemma fileCopy_behind (junk : Junk) (src dest : List UInt8) : Prints (fileCopy junk src dest) := by
  intro s out
  have hentry : ∀ (s : FS) i, { s.behind out with curDir := s.curDir.add dest i } =
      ({ s with curDir := s.curDir.add dest i } : FS).behind out := fun _ _ => rfl
  unfold fileCopy
  dsimp only
  rw [searchCurDir_behind, readInode_behind, behind_curDir, behind_superBlock, getInode_behind]
  refine check_behind s out _ ?_
  refine check_behind s out _ ?_
  refine check_behind s out _ ?_
  refine check_behind s out _ ?_
  refine check_behind s out _ ?_
  refine check_behind (getInode s).2 out _ ?_
  unfold after
  dsimp only
  rw [behind_curDir, hentry, fillFile_behind _ out]
  · generalize fillFile junk _ _ _ _ _ = r
    obtain ⟨node, s'⟩ := r
    cases node with
    | none => rfl
    | some node => rfl
  · exact fun i s buf => readDiskBlock_behind s out _ buf
  · intro s
    dsimp only
    rw [readDiskBlock_behind]
  · exact fun _ i s buf => readDiskBlock_behind s out _ buf

lemma fileCreate_behind (junk : Junk) (name : List UInt8) (size : Int32) :
    Prints (fileCreate junk name size) := by
  intro s out
  have hentry : ∀ (s : FS) i, { s.behind out with curDir := s.curDir.add name i } =
      ({ s with curDir := s.curDir.add name i } : FS).behind out := fun _ _ => rfl
  unfold fileCreate
  dsimp only
  rw [searchCurDir_behind, behind_curDir, behind_superBlock]
  refine check_behind s out _ ?_
  refine check_behind s out _ ?_
  refine check_behind s out _ ?_
  refine check_behind s out _ ?_
  refine check_behind s out _ ?_
  rw [printf_behind]
  generalize printf s (str "File contents:\n" ++ randString junk size.toInt.toNat ++ str "\n") = s₁
  rw [getInode_behind]
  refine check_behind (getInode s₁).2 out _ ?_
  unfold after
  dsimp only
  rw [behind_curDir, hentry, fillFile_behind _ out]
  · generalize fillFile junk _ _ _ _ _ = r
    obtain ⟨node, s'⟩ := r
    cases node with
    | none => rfl
    | some node =>
      dsimp only [after]
      rw [writeInode_behind, printf_behind]
  · exact fun _ _ _ => rfl
  · exact fun _ => rfl
  · exact fun _ _ _ _ => rfl

lemma fileStat_behind (junk : Junk) (name : List UInt8) : Prints (fileStat junk name) := by
  intro s out
  unfold fileStat
  dsimp only
  rw [searchCurDir_behind, readInode_behind]
  by_cases hnone : searchCurDir s name < 0
  · rw [if_pos hnone, if_pos hnone, printf_behind, after_mk]
  · rw [if_neg hnone, if_neg hnone, printf_behind, after_mk]

end File

/-! ## `directory.c` -/

lemma dirMake_behind (junk : Junk) (name : List UInt8) : Prints (dirMake junk name) := by
  intro s out
  unfold dirMake
  dsimp only
  rw [searchCurDir_behind, behind_curDir, behind_superBlock, getInode_behind]
  refine check_behind s out _ ?_
  refine check_behind s out _ ?_
  refine check_behind s out _ ?_
  refine check_behind s out _ ?_
  unfold after
  dsimp only
  rw [getBlock_behind]
  unfold after
  dsimp only
  rw [writeInode_behind, searchCurDir_behind]
  refine check_behind _ out _ ?_
  rw [writeDiskBlock_behind]
  rfl

lemma dirRemove_behind (junk : Junk) (name : List UInt8) : Prints (dirRemove junk name) := by
  intro s out
  unfold dirRemove
  simp only [searchCurDir_behind, readInode_behind, readDiskBlock_behind, writeInode_behind,
    freeBlock_behind, freeInode_behind, printf_behind]
  split_ifs
  · rfl
  · rfl
  · rfl
  · rfl
  · rfl
  · rfl

lemma dirChange_behind (name : List UInt8) : Prints (dirChange name) := by
  intro s out
  have hmove : ∀ (s : FS) b, { s.behind out with curDirBlock := b } =
      ({ s with curDirBlock := b } : FS).behind out := fun _ _ => rfl
  unfold dirChange
  dsimp only
  rw [searchCurDir_behind, readInode_behind, printf_behind, printf_behind, behind_curDirBlock,
    behind_curDir, writeDiskBlock_behind, hmove, behind_curDir, readDiskBlock_behind]
  split_ifs
  · rfl
  · rfl
  · rfl

lemma ls_behind : Prints ls := by
  intro s out
  have hline : ∀ (s : FS) out i, printf (s.behind out) (lsLine (s.behind out)
      ((s.behind out).curDir.entry i)) =
        (printf s (lsLine s (s.curDir.entry i))).behind out := fun s out i => printf_behind s out _
  unfold ls
  rw [after_mk]
  exact congrArg (Prod.mk _) (foldl_behind s out hline _)

/-! ## Commands -/

lemma fsStat_behind (junk : Junk) : Prints (fsStat junk) := by
  intro s out
  unfold fsStat
  rw [behind_superBlock, printf_behind, after_mk]

/-- A command does the same behind other output. -/
lemma executeCommand_behind (junk : Junk) (line : Line) : Prints (executeCommand junk line) := by
  intro s out
  obtain ⟨comm, arg1, arg2, numArg⟩ := line
  unfold executeCommand
  dsimp only
  refine ite_behind out (check_behind s out _ (fileCreate_behind junk _ _ s out)) ?_
  refine ite_behind out (check_behind s out _ (fileCat_behind junk _ s out)) ?_
  refine ite_behind out (check_behind s out _ (fileRemove_behind junk _ s out)) ?_
  refine ite_behind out (check_behind s out _ (dirMake_behind junk _ s out)) ?_
  refine ite_behind out (check_behind s out _ (dirRemove_behind junk _ s out)) ?_
  refine ite_behind out (check_behind s out _ (dirChange_behind _ s out)) ?_
  refine ite_behind out (ls_behind s out) ?_
  refine ite_behind out (check_behind s out _ (fileStat_behind junk _ s out)) ?_
  refine ite_behind out (fsStat_behind junk s out) ?_
  refine ite_behind out (check_behind s out _ (hardLink_behind _ _ s out)) ?_
  exact ite_behind out (check_behind s out _ (fileCopy_behind junk _ _ s out)) rfl

lemma fsUmount_behind (junk : Junk) (s : FS) (out : List UInt8) :
    fsUmount junk (s.behind out) = (fsUmount junk s).behind out := by
  have hsave : ∀ (s : FS) out i, saveInodes (s.behind out) i = (saveInodes s i).behind out :=
    fun s out i => writeDiskBlock_behind s out _ _
  unfold fsUmount
  dsimp only
  rw [behind_superBlock, writeDiskBlock_behind, behind_inodeMap, writeDiskBlock_behind,
    behind_blockMap, writeDiskBlock_behind, foldl_behind _ out hsave, behind_curDirBlock,
    behind_curDir, writeDiskBlock_behind]

end OsProjects.FileSys
