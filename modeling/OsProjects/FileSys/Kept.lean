import OsProjects.FileSys.Dispatch
import OsProjects.FileSys.ChangeDir

/-!
# What no command changes

The superblock keeps its magic number and the number of the root, and whatever is a
directory has one block.  This is so in every state, consistent or not.
-/

namespace OsProjects.FileSys
open FirstFit

/-- An inode that is a directory has one block. -/
def OneBlock (n : Inode) : Prop := n.type = .directory → n.blockCount = 1

/-- The superblock keeps what identifies it, and directories keep to one block. -/
structure Kept (s s' : FS) : Prop where
  magic : s'.superBlock.magicNumber = s.superBlock.magicNumber
  root : s'.superBlock.rootDirInode = s.superBlock.rootDirInode
  dirs : (∀ i, OneBlock (s.inode i)) → ∀ i, OneBlock (s'.inode i)

namespace Kept

lemma refl (s : FS) : Kept s s := ⟨rfl, rfl, id⟩

lemma trans {s s' s'' : FS} (h : Kept s s') (h' : Kept s' s'') : Kept s s'' :=
  ⟨h'.magic.trans h.magic, h'.root.trans h.root, fun hs => h'.dirs (h.dirs hs)⟩

/-- Where neither the superblock nor an inode changes. -/
lemma of_eq {s s' : FS} (hsuper : s'.superBlock = s.superBlock) (hinode : s'.inode = s.inode) :
    Kept s s' := by
  refine ⟨by rw [hsuper], by rw [hsuper], ?_⟩
  rw [hinode]
  exact id

lemma printf (s : FS) (text : List UInt8) : Kept s (printf s text) := of_eq rfl rfl

lemma writeInode {s : FS} {n : Inode} (i : ℤ) (hn : (∀ i, OneBlock (s.inode i)) → OneBlock n) :
    Kept s (writeInode s i n) := by
  refine ⟨rfl, rfl, fun hs j => ?_⟩
  change OneBlock (Function.update s.inode i n j)
  rw [Function.update_apply]
  split_ifs
  · exact hn hs
  · exact hs j

lemma setInodeMap (s : FS) (i : ℤ) (value : Bool) : Kept s (setInodeMap s i value) := of_eq rfl rfl

lemma setBlockMap (s : FS) (b : ℤ) (value : Bool) : Kept s (setBlockMap s b value) := of_eq rfl rfl

lemma addFreeInodes (s : FS) (n : Int32) : Kept s (addFreeInodes s n) := ⟨rfl, rfl, id⟩

lemma addFreeBlocks (s : FS) (n : Int32) : Kept s (addFreeBlocks s n) := ⟨rfl, rfl, id⟩

lemma getInode (s : FS) : Kept s (getInode s).2 := by
  unfold FileSys.getInode
  cases firstFree (getInodeMap s) maxInode 0 with
  | none => exact refl s
  | some i => exact (setInodeMap s i true).trans (addFreeInodes _ (-1))

lemma getBlock (s : FS) : Kept s (getBlock s).2 := by
  unfold FileSys.getBlock
  cases firstFree (getBlockMap s) maxBlock 0 with
  | none => exact refl s
  | some b => exact (setBlockMap s b true).trans (addFreeBlocks _ (-1))

lemma freeInode (s : FS) (i : ℤ) : Kept s (freeInode s i) := by
  unfold FileSys.freeInode
  split_ifs
  · exact (setInodeMap s i false).trans (addFreeInodes _ 1)
  · exact refl s

lemma freeBlock (s : FS) (b : ℤ) : Kept s (freeBlock s b) := by
  unfold FileSys.freeBlock
  split_ifs
  · exact (setBlockMap s b false).trans (addFreeBlocks _ 1)
  · exact refl s

lemma writeDiskBlock (s : FS) (b : ℤ) (buf : Block) : Kept s (writeDiskBlock s b buf) := by
  unfold FileSys.writeDiskBlock
  split_ifs
  · exact printf s _
  · exact of_eq rfl rfl

lemma readDiskBlock (s : FS) (b : ℤ) (buf : Block) : Kept s (readDiskBlock s b buf).1 := by
  unfold FileSys.readDiskBlock
  split_ifs
  · exact printf s _
  · exact refl s

lemma foldl {α : Type} {f : FS → α → FS} (hf : ∀ s a, Kept s (f s a)) (l : List α) (s : FS) :
    Kept s (l.foldl f s) := by
  induction l generalizing s with
  | nil => exact refl s
  | cons a l ih => exact (hf s a).trans (ih (f s a))

lemma printed {s s' : FS} (h : Printed s s') : Kept s s' := by
  unfold Printed at h
  rw [h]
  exact of_eq rfl rfl

lemma ite {s : FS} {p : Prop} [Decidable p] {r r' : ℤ × FS} (h : Kept s r.2) (h' : Kept s r'.2) :
    Kept s (if p then r else r').2 := by
  split_ifs
  · exact h
  · exact h'

/-! ## Files -/

section Fetch
variable {fetch : ℕ → FS → Block → FS × Block} (hfetch : ∀ i s buf, Kept s (fetch i s buf).1)
include hfetch

lemma allocBlocks (n i : ℕ) (st : FS × Block) : Kept st.1 (allocBlocks fetch n i st).2.1 := by
  induction n generalizing i st with
  | zero => exact refl st.1
  | succ n ih =>
    obtain ⟨s, buf⟩ := st
    unfold FileSys.allocBlocks
    dsimp only
    split_ifs
    · exact getBlock s
    · have hwrite := ((getBlock s).trans (hfetch i _ buf)).trans (writeDiskBlock _
        (FileSys.getBlock s).1 (fetch i (FileSys.getBlock s).2 buf).2)
      exact hwrite.trans (ih (i + 1) (_, _))

lemma fillFile {fetchIndirect : FS → FS × (ℕ → FS → Block → FS × Block)} (junk : Junk)
    (failed : List UInt8) (n : Inode) (s : FS)
    (hindirect : ∀ s, Kept s (fetchIndirect s).1 ∧
      ∀ i s' buf, Kept s' ((fetchIndirect s).2 i s' buf).1) :
    Kept s (fillFile junk failed n fetch fetchIndirect s).2 := by
  have hdirect := allocBlocks hfetch (min 15 n.blockCount.toInt.toNat) 0 (s, junk.buf)
  unfold FileSys.fillFile
  dsimp only
  split
  · exact hdirect.trans (printf _ _)
  · split_ifs
    · exact (hdirect.trans (getBlock _)).trans (printf _ _)
    · obtain ⟨hfirst, hlater⟩ := hindirect (FileSys.getBlock
        (FileSys.allocBlocks fetch (min 15 n.blockCount.toInt.toNat) 0 (s, junk.buf)).2.1).2
      have hrest := (hdirect.trans (getBlock _)).trans (hfirst.trans (allocBlocks hlater
        (n.blockCount.toInt.toNat - 15) 15 (_, (FileSys.allocBlocks fetch
          (min 15 n.blockCount.toInt.toNat) 0 (s, junk.buf)).2.2)))
      split
      · exact hrest.trans (printf _ _)
      · exact hrest.trans (writeDiskBlock _ _ _)
    · exact hdirect

omit hfetch in
/-- The inode that is filled keeps its type. -/
lemma fillFile_type {fetchIndirect : FS → FS × (ℕ → FS → Block → FS × Block)} {junk : Junk}
    {failed : List UInt8} {n n' : Inode} {s s' : FS}
    (h : FileSys.fillFile junk failed n fetch fetchIndirect s = (some n', s')) :
    n'.type = n.type := by
  unfold FileSys.fillFile at h
  dsimp only at h
  split at h
  · cases h
  · split_ifs at h
    · cases h
    · split at h
      · cases h
      · obtain rfl := Option.some.inj (Prod.mk.inj h).1
        rfl
    · obtain rfl := Option.some.inj (Prod.mk.inj h).1
      rfl

/-- A new file is written to its inode. -/
lemma newFile {fetchIndirect : FS → FS × (ℕ → FS → Block → FS × Block)} {junk : Junk}
    {failed : List UInt8} {n : Inode} {s t : FS} {i : ℤ} (done : FS → FS)
    (hdone : ∀ s, Kept s (done s)) (hfile : n.type = .file)
    (hindirect : ∀ s, Kept s (fetchIndirect s).1 ∧
      ∀ i s' buf, Kept s' ((fetchIndirect s).2 i s' buf).1) (h : Kept s t) :
    Kept s (match FileSys.fillFile junk failed n fetch fetchIndirect t with
      | (none, s) => ((-1 : ℤ), s)
      | (some n, s) => (0, done (FileSys.writeInode s i n))).2 := by
  have hfill := fillFile hfetch junk failed n t hindirect
  cases heq : FileSys.fillFile junk failed n fetch fetchIndirect t with
  | mk found s' =>
    rw [heq] at hfill
    cases found with
    | none => exact h.trans hfill
    | some n' =>
      refine ((h.trans hfill).trans (writeInode i ?_)).trans (hdone _)
      intro _ hdir
      rw [fillFile_type heq, hfile] at hdir
      cases hdir

end Fetch

lemma freeFile (junk : Junk) (s : FS) (i : ℤ) (n : Inode) : Kept s (freeFile junk s i n) := by
  have hdirect := foldl freeBlock ((List.range (min 15 n.blockCount.toInt.toNat)).map n.direct) s
  unfold FileSys.freeFile
  dsimp only
  split_ifs
  · refine (hdirect.trans ?_).trans (freeInode _ i)
    exact ((readDiskBlock _ _ _).trans (foldl freeBlock _ _)).trans (freeBlock _ _)
  · exact hdirect.trans (freeInode _ i)

/-- Where only link counts change. -/
lemma relinked {s s' : FS} (h : Relinked s s') : Kept s s' := by
  have hsuper : s'.superBlock = s.superBlock := by rw [h.rest]
  refine ⟨by rw [hsuper], by rw [hsuper], fun hs i => ?_⟩
  rw [h.inode i]
  exact hs i

lemma fileRemove (junk : Junk) (name : List UInt8) (s : FS) :
    Kept s (fileRemove junk name s).2 := by
  unfold FileSys.fileRemove readInode
  dsimp only
  split_ifs with hnone htype hlast
  · exact printf s _
  · exact printf s _
  · have hwrite : Kept s (FileSys.writeInode s (searchCurDir s name)
        { s.inode (searchCurDir s name) with
          linkCount := (s.inode (searchCurDir s name)).linkCount - 1 }) :=
      writeInode _ fun hs => hs (searchCurDir s name)
    exact (hwrite.trans (freeFile junk _ _ _)).trans (of_eq rfl rfl)
  · exact relinked (unlinked_relinked s (searchCurDir s name) name)

lemma hardLink (src dest : List UInt8) (s : FS) : Kept s (hardLink src dest s).2 := by
  by_cases hrefused : LinkRefused s src
  · obtain ⟨s', heq, hprint⟩ := hardLink_refused hrefused dest
    rw [heq]
    exact printed hprint
  · rw [hardLink_linked hrefused]
    exact relinked (linked_relinked s _ dest)

lemma fileCreate (junk : Junk) (name : List UInt8) (size : Int32) (s : FS) :
    Kept s (fileCreate junk name size s).2 := by
  refine ite (printf s _) (ite (printf s _) (ite (printf s _) (ite (printf s _) (ite (printf s _)
    (ite (((printf s _).trans (getInode _)).trans (printf _ _)) ?_)))))
  apply newFile (fun _ s _ => refl s) (fun s => FileSys.printf s _) (fun s => printf s _) rfl
    (fun s => ⟨refl s, fun _ s _ => refl s⟩)
  exact ((printf s _).trans (getInode _)).trans (of_eq rfl rfl)

lemma fileCopy (junk : Junk) (src dest : List UInt8) (s : FS) :
    Kept s (fileCopy junk src dest s).2 := by
  refine ite (printf s _) (ite (printf s _) (ite (printf s _) (ite (printf s _) (ite (printf s _)
    (ite ((getInode s).trans (printf _ _)) ?_)))))
  apply newFile (fun _ s _ => readDiskBlock s _ _) (fun s => s) refl rfl
    (fun s => ⟨readDiskBlock s _ _, fun _ s _ => readDiskBlock s _ _⟩)
  exact (getInode s).trans (of_eq rfl rfl)

/-! ## Directories -/

lemma dirMake (junk : Junk) (name : List UInt8) (s : FS) : Kept s (dirMake junk name s).2 := by
  have htook := (getInode s).trans (getBlock (FileSys.getInode s).2)
  refine ite (printf s _) (ite (printf s _) (ite (printf s _) (ite (printf s _) (ite ?_ ?_))))
  · exact (htook.trans (writeInode _ fun _ _ => rfl)).trans (printf _ _)
  · exact ((htook.trans (writeInode _ fun _ _ => rfl)).trans (writeDiskBlock _ _ _)).trans
      (of_eq rfl rfl)

lemma dirRemove (junk : Junk) (name : List UInt8) (s : FS) : Kept s (dirRemove junk name s).2 := by
  unfold FileSys.dirRemove readInode
  dsimp only
  generalize searchCurDir s name = j
  have hprint := Printed.readDiskBlock s ((s.inode j).direct 0) junk.dir.toBlock
  generalize FileSys.readDiskBlock s ((s.inode j).direct 0) junk.dir.toBlock = found at hprint ⊢
  obtain ⟨t, dir⟩ := found
  have hinode : t.inode = s.inode := by
    rw [show t = { s with stdout := t.stdout } from hprint]
  have hwrite : Kept s (FileSys.writeInode t j
      { s.inode j with linkCount := (s.inode j).linkCount - 1 }) := by
    refine (printed hprint).trans (writeInode j fun ht => ?_)
    rw [hinode] at ht
    exact ht j
  refine ite (printf s _) (ite (printf s _) (ite (printf s _)
    (ite ((printed hprint).trans (printf _ _)) ?_)))
  split_ifs
  · exact (hwrite.trans ((freeBlock _ _).trans (freeInode _ j))).trans (of_eq rfl rfl)
  · exact hwrite.trans (of_eq rfl rfl)

/-- Where only the current directory and its block change. -/
lemma moved {s s' : FS} (h : Moved s s') : Kept s s' := of_eq (by rw [h.eq]) (by rw [h.eq])

/-! ## All of them -/

theorem executeCommand (junk : Junk) (line : Line) (s : FS) :
    Kept s (executeCommand junk line s).2 := by
  obtain ⟨comm, arg1, arg2, numArg⟩ := line
  refine ite (ite (printf s _) (fileCreate junk _ _ s)) (ite (ite (printf s _)
    (printed (fileCat_printed junk _ s))) (ite (ite (printf s _) (fileRemove junk _ s))
    (ite (ite (printf s _) (dirMake junk _ s)) (ite (ite (printf s _) (dirRemove junk _ s))
    (ite (ite (printf s _) (moved (dirChange_moved s _))) (ite (printed (ls_printed s))
    (ite (ite (printf s _) (printed (fileStat_printed junk _ s)))
    (ite (printed (fsStat_printed junk s)) (ite (ite (printf s _) (hardLink _ _ s))
    (ite (ite (printf s _) (fileCopy junk _ _ s)) (refl s)))))))))))

end Kept

end OsProjects.FileSys
