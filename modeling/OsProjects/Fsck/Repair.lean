import OsProjects.Fsck.Rebuild

/-!
# What a run of `correct` leaves behind

The repair is decided by two counts, and the superblock is not repaired.  So bits that
have only moved stay where they are, and counters that are wrong stay wrong.
-/

namespace OsProjects.Fsck
open FileSys FirstFit Worklist

section Free
open scoped Classical

/-- The number of inodes that the root does not reach. -/
noncomputable def unreached (s : FS) : ℕ :=
  ((Finset.Ico (0 : ℤ) maxInode).filter fun i => ¬ Reachable s i).card

/-- The number of blocks that neither the metadata nor what the root reaches takes up. -/
noncomputable def unused (s : FS) : ℕ :=
  ((Finset.Ico (0 : ℤ) maxBlock).filter fun b => ¬ (b < firstDataBlock ∨
    ∃ i, Reachable s i ∧ b ∈ listedBlocks s.disk (s.inode i))).card

/-- The superblock counts the inodes and blocks that are free. -/
def CountersRight (s : FS) : Prop :=
  s.superBlock.freeInodeCount.toInt = unreached s ∧ s.superBlock.freeBlockCount.toInt = unused s

lemma freeCount_eq_card {used : ℤ → Bool} {n : ℕ} {p : ℤ → Prop}
    (h : ∀ i : ℤ, 0 ≤ i → i < n → (used i = true ↔ p i)) :
    freeCount used n = ((Finset.Ico (0 : ℤ) n).filter fun i => ¬ p i).card := by
  unfold freeCount
  apply congrArg Finset.card
  apply Finset.filter_congr
  intro i hi
  rw [Finset.mem_Ico] at hi
  rw [← h i hi.1 hi.2, Bool.not_eq_true]

/-- On exact maps the code's check compares the counters with the right numbers. -/
lemma Exact.countersAgree_iff {s : FS} (h : Exact s) :
    countersAgree s = true ↔ CountersRight s := by
  have hinodes : freeCount (bitAt s.inodeMap) maxInode = unreached s := by
    unfold unreached
    convert freeCount_eq_card h.inodeMap
  have hblocks : freeCount (bitAt s.blockMap) maxBlock = unused s := by
    unfold unused
    convert freeCount_eq_card h.blockMap
  rw [Fsck.countersAgree_iff, InodesCounted, BlocksCounted, hinodes, hblocks]
  exact Iff.rfl

lemma unreached_pos {s : FS} {i : ℤ} (h0 : 0 ≤ i) (hlt : i < maxInode) (hi : ¬ Reachable s i) :
    0 < unreached s :=
  Finset.card_pos.mpr ⟨i, Finset.mem_filter.mpr ⟨Finset.mem_Ico.mpr ⟨h0, hlt⟩, hi⟩⟩

lemma MapsOnly.countersRight {s s' : FS} (h : MapsOnly s s') :
    CountersRight s' ↔ CountersRight s := by
  have hinode := h.inode
  have hdisk := h.disk
  have hsuper := h.superBlock
  unfold CountersRight unreached unused
  rw [h.reachable_eq, hinode, hdisk, hsuper]

end Free

/-- `correct` leaves the image alone exactly when the two counts agree with the counters, and
otherwise makes the maps exact.  It never writes the superblock, so afterwards the counters agree
if they did before or are those of the exact maps. -/
theorem correct_repairs {s : FS} (h : TreeImage s) (junk : Junk) :
    ∃ fuel s', correct junk fuel s = .ok s' ∧ MapsOnly s s' ∧
      (countersAgree s = true → s' = s) ∧ (countersAgree s = false → Exact s') ∧
      (countersAgree s' = true ↔ countersAgree s = true ∨ CountersRight s) := by
  cases hagree : countersAgree s with
  | true =>
    have hrun : correct junk 0 s = .ok s := if_pos hagree
    refine ⟨0, s, hrun, MapsOnly.refl s, fun _ => rfl,
      fun h => absurd h.symm Bool.false_ne_true, ?_⟩
    rw [hagree]
    exact ⟨fun _ => Or.inl rfl, fun _ => rfl⟩
  | false =>
    obtain ⟨fuel, w, hrun, hmaps, hexact⟩ := h.rebuild junk
    refine ⟨fuel, w.fs, ?_, hmaps, fun h => absurd h Bool.false_ne_true, fun _ => hexact, ?_⟩
    · unfold correct
      rw [hagree, hrun]
      rfl
    · rw [hexact.countersAgree_iff, hmaps.countersRight]
      exact ⟨Or.inr, fun h => h.resolve_left Bool.false_ne_true⟩

/-- The bit of inode 0 has moved to inode 1. -/
def movedBit : FS := { mounted with inodeMap := fun k => if k = 0 then 2 else 0 }

/-- The numbers of clear bits have not changed. -/
lemma movedBit_agrees : countersAgree movedBit = true := by
  have hfresh : Fresh mounted := fsMountNew_eq ▸ fsMountNew_fresh
  have hclear : countClear movedBit.inodeMap maxInode = 511 := by decide +kernel
  rw [countersAgree_iff, InodesCounted, ← countClear_eq, hclear]
  exact ⟨rfl, hfresh.blocks⟩

/-- The superblock with another number of free inodes. -/
def withCount (s : FS) (freeInodeCount : Int32) : FS :=
  { s with superBlock := { s.superBlock with freeInodeCount := freeInodeCount } }

section Count
variable (s : FS) (freeInodeCount : Int32)

lemma reachable_withCount : Reachable (withCount s freeInodeCount) = Reachable s := rfl

lemma inodeMap_withCount : (withCount s freeInodeCount).inodeMap = s.inodeMap := rfl

lemma freeInodeCount_withCount :
    (withCount s freeInodeCount).superBlock.freeInodeCount = freeInodeCount := rfl

/-- A tree does not depend on the counters. -/
lemma TreeImage.withCount {s : FS} (h : TreeImage s) : TreeImage (withCount s freeInodeCount) :=
  { h with }

/-- Without the bitmaps every other number than that of all inodes is wrong. -/
lemma withCount_disagrees (hcount : freeInodeCount.toInt ≠ 512) :
    countersAgree (withCount (loaded (lostImage s)) freeInodeCount) = false := by
  rw [← Bool.not_eq_true, countersAgree_iff, InodesCounted, ← countClear_eq, inodeMap_withCount,
    countClear_lost, freeInodeCount_withCount]
  exact fun hagree => hcount hagree.1

end Count

/-- The bitmaps are lost, and the superblock has lost count of the inodes. -/
def wrongCounter : FS := withCount lostMaps 0

lemma wrongCounter_treeImage : TreeImage wrongCounter := by
  unfold wrongCounter
  exact lostMaps_treeImage.withCount 0

/-- There are free inodes. -/
lemma wrongCounter_not_right : ¬ CountersRight wrongCounter := by
  rintro ⟨hright, -⟩
  have hzero : (0 : ℤ) = unreached wrongCounter := hright
  have hpos := unreached_pos (s := wrongCounter) (i := 3) (by decide) (by decide) fun hi => by
    unfold wrongCounter at hi
    rw [reachable_withCount, holds_lostMaps.reachable_iff nested_intact] at hi
    have hbit := hi.2.2
    rw [nested_inodes.2.2.2.2] at hbit
    cases hbit
  omega

lemma wrongCounter_disagrees : countersAgree wrongCounter = false := by
  unfold wrongCounter lostMaps
  exact withCount_disagrees nested 0 (by decide)

theorem correct_repairs_wrongCounter : ∃ fuel s', correct Junk.zero fuel wrongCounter = .ok s' ∧
    Exact s' ∧ countersAgree s' = false := by
  obtain ⟨fuel, s', hrun, -, -, hexact, hiff⟩ :=
    correct_repairs wrongCounter_treeImage Junk.zero
  refine ⟨fuel, s', hrun, hexact wrongCounter_disagrees, ?_⟩
  rw [← Bool.not_eq_true, hiff, wrongCounter_disagrees]
  exact fun h => h.elim Bool.false_ne_true wrongCounter_not_right

/-- A new disk has no directory but the root. -/
lemma holds_movedBit : Holds mounted movedBit := by
  have hfresh : Fresh mounted := fsMountNew_eq ▸ fsMountNew_fresh
  refine { superBlock := rfl, inode := fun _ _ _ => rfl, file := fun _ _ _ _ => rfl,
           dirAt := fun _ _ => rfl, current := ⟨0, hfresh.isDir_root, hfresh.current⟩,
           onDisk := fun d hd => ?_ }
  rw [(hfresh.allocated d).mp hd.1, hfresh.dirAt_root]
  exact Dentry.ofBlock_toBlock rootDir

/-- The rebuild is skipped though the maps are wrong, and a rebuild leaves a counter wrong. -/
theorem correct_leaves_inconsistent :
    (¬ ∀ s, TreeImage s → countersAgree s = true → Exact s) ∧
      ¬ ∀ s, TreeImage s → ∀ junk fuel s', correct junk fuel s = .ok s' →
        countersAgree s' = true := by
  constructor
  · intro h
    have hfresh : Fresh mounted := fsMountNew_eq ▸ fsMountNew_fresh
    have hintact : Intact mounted := fsMountNew_eq ▸ fsMountNew_intact
    have hexact := h movedBit (holds_movedBit.treeImage hintact) movedBit_agrees
    have hroot := (holds_movedBit.reachable_iff hintact).mpr hfresh.isDir_root.1
    have hbit := (hexact.inodeMap 0 le_rfl (by decide)).mpr hroot
    revert hbit
    decide
  · intro h
    obtain ⟨fuel, s', hrun, -, -, -, hiff⟩ := correct_repairs wrongCounter_treeImage Junk.zero
    rcases hiff.mp (h _ wrongCounter_treeImage _ _ _ hrun) with hagree | hright
    · rw [wrongCounter_disagrees] at hagree
      exact Bool.false_ne_true hagree
    · exact wrongCounter_not_right hright

end OsProjects.Fsck
