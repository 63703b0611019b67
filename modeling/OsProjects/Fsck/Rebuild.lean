import OsProjects.Fsck.Image

/-!
# The rebuilt bitmaps

On an image whose directories form a tree the traversal takes every directory once.
What it has marked at each point is what the directories taken so far name; at the end
that is what the root reaches, whatever the bitmaps held before.
-/

namespace OsProjects.Fsck
open FileSys Worklist

/-! ## What is marked -/

lemma foldl_setBlockMap {s : FS} (l : List ℤ) (b : ℤ) :
    bitAt (l.foldl (fun s b => setBlockMap s b true) s).blockMap b = true ↔
      bitAt s.blockMap b = true ∨ b ∈ l := by
  induction l generalizing s with
  | nil => simp only [List.foldl_nil, List.not_mem_nil, or_false]
  | cons a l ih =>
    rw [List.foldl_cons, ih, bitAt_setBlockMap, Function.update_apply, List.mem_cons]
    split_ifs with hb
    · simp only [hb, true_or, or_true]
    · simp only [hb, false_or]

lemma foldl_setBlockMap_inodeMap {s : FS} (l : List ℤ) :
    (l.foldl (fun s b => setBlockMap s b true) s).inodeMap = s.inodeMap := by
  induction l generalizing s with
  | nil => rfl
  | cons a l ih => rw [List.foldl_cons, ih, setBlockMap]

/-- The indirect block, if there is one, can be read. -/
def IndirectOk (n : Inode) : Prop :=
  n.blockCount.toInt > 15 → 0 ≤ n.indirectBlock.toInt ∧ n.indirectBlock.toInt < maxBlock

lemma helper_eq (indirMap : Block) {s : FS} {n : Inode} (h : IndirectOk n) :
    helper indirMap s n = (listedBlocks s.disk n).foldl (fun s b => setBlockMap s b true) s := by
  have hdisk : ∀ (l : List ℤ) (s : FS),
      (l.foldl (fun s b => setBlockMap s b true) s).disk = s.disk := fun l s =>
    (MapsOnly.foldl (f := fun s b => setBlockMap s b true) (fun _ _ => rfl) l s).disk
  unfold helper listedBlocks
  dsimp only
  rw [List.foldl_append, List.foldl_map]
  split_ifs with hlarge
  · obtain ⟨h0, hlt⟩ := h hlarge
    rw [readDiskBlock_eq h0 hlt, List.foldl_cons, List.foldl_map]
    have hsame := hdisk ((List.range (min n.blockCount.toInt.toNat 15)).map n.direct) s
    rw [List.foldl_map] at hsame
    unfold setBlockMap at hsame ⊢
    dsimp only at hsame ⊢
    rw [hsame]
  · rfl

section Mark
variable {indirMap : Block} {s : FS} {es : List DirectoryEntry}

lemma mark_blockMap {e : DirectoryEntry} (h : IndirectOk (s.inode e.inode.toInt)) (b : ℤ) :
    bitAt (mark indirMap s e).blockMap b = true ↔
      bitAt s.blockMap b = true ∨ b ∈ listedBlocks s.disk (s.inode e.inode.toInt) := by
  have hmap : (mark indirMap s e).blockMap =
      (helper indirMap s (s.inode e.inode.toInt)).blockMap := rfl
  rw [hmap, helper_eq indirMap h, foldl_setBlockMap]

lemma mark_inodeMap {e : DirectoryEntry} (h : IndirectOk (s.inode e.inode.toInt)) (i : ℤ) :
    bitAt (mark indirMap s e).inodeMap i = true ↔
      bitAt s.inodeMap i = true ∨ i = e.inode.toInt := by
  have hmap : bitAt (mark indirMap s e).inodeMap = Function.update
      (bitAt (helper indirMap s (s.inode e.inode.toInt)).inodeMap) e.inode.toInt true :=
    bitAt_setBit_eq _ _ true
  rw [hmap, helper_eq indirMap h, foldl_setBlockMap_inodeMap, Function.update_apply]
  split_ifs with hi
  · simp only [hi, or_true]
  · simp only [hi, or_false]

/-- After all entries of a directory. -/
lemma foldl_mark (h : ∀ e ∈ es, IndirectOk (s.inode e.inode.toInt)) :
    (∀ i, bitAt (es.foldl (mark indirMap) s).inodeMap i = true ↔
      bitAt s.inodeMap i = true ∨ ∃ e ∈ es, i = e.inode.toInt) ∧
    ∀ b, bitAt (es.foldl (mark indirMap) s).blockMap b = true ↔
      bitAt s.blockMap b = true ∨ ∃ e ∈ es, b ∈ listedBlocks s.disk (s.inode e.inode.toInt) := by
  induction es generalizing s with
  | nil =>
    constructor
    · intro i
      simp only [List.foldl_nil, List.not_mem_nil, false_and, exists_false, or_false]
    · intro b
      simp only [List.foldl_nil, List.not_mem_nil, false_and, exists_false, or_false]
  | cons e es ih =>
    have hsame := mark_mapsOnly indirMap s e
    have he := h e List.mem_cons_self
    obtain ⟨hi, hb⟩ := ih (s := mark indirMap s e) fun e' he' => by
      rw [hsame.inode]
      exact h e' (List.mem_cons_of_mem _ he')
    constructor
    · intro i
      rw [List.foldl_cons, hi, mark_inodeMap he, or_assoc, List.exists_mem_cons_iff]
    · intro b
      rw [List.foldl_cons, hb, mark_blockMap he, hsame.inode, hsame.disk, or_assoc,
        List.exists_mem_cons_iff]

end Mark

/-! ## The cleared maps -/

lemma bitAt_clearMaps_inodeMap (s : FS) {i : ℤ} (h0 : 0 ≤ i) (hlt : i < maxInode) :
    bitAt (clearMaps s).inodeMap i = false := by
  have hset := fun m n => bitAt_foldl_setBit (fun _ => false) m n i
  simp only [Bool.false_eq_true, if_false] at hset
  unfold clearMaps
  dsimp only
  rw [hset, hset, if_pos (⟨h0, hlt⟩ : 0 ≤ i ∧ i < maxInode)]
  split_ifs <;> rfl

lemma bitAt_clearMaps_blockMap (s : FS) {b : ℤ} (h0 : 0 ≤ b) (hlt : b < maxBlock) :
    bitAt (clearMaps s).blockMap b = true ↔ b < firstDataBlock := by
  have hset := fun m n => bitAt_foldl_setBit (fun _ => false) m n b
  have hreserved := fun m => bitAt_foldl_setBit (fun i => decide (i < 1 + 1 + 1 + numInodeBlock))
    m (maxBlock / 8) b
  simp only [Bool.false_eq_true, if_false] at hset
  simp only [decide_eq_true_eq] at hreserved
  have hmax : maxBlock / 8 = 512 := rfl
  have hnum : numInodeBlock = 128 := rfl
  unfold clearMaps firstDataBlock
  dsimp only
  rw [hreserved, hset, if_pos (⟨h0, hlt⟩ : 0 ≤ b ∧ b < maxBlock), hmax, hnum]
  split_ifs with hb
  · rw [decide_eq_true_eq]
    omega
  · constructor
    · exact fun h => h.elim
    · omega

/-! ## The traversal of a tree -/

/-- What is marked when the directories `seen` have been taken. -/
structure Marked (s : FS) (seen : List ℤ) (s' : FS) : Prop where
  mapsOnly : MapsOnly s s'
  inodeMap : ∀ i : ℤ, 0 ≤ i → i < maxInode → (bitAt s'.inodeMap i = true ↔
    ∃ x ∈ seen, ∃ e ∈ entries (dirOf s x), i = e.inode.toInt)
  blockMap : ∀ b : ℤ, 0 ≤ b → b < maxBlock → (bitAt s'.blockMap b = true ↔ b < firstDataBlock ∨
    ∃ x ∈ seen, ∃ e ∈ entries (dirOf s x), b ∈ listedBlocks s.disk (s.inode e.inode.toInt))

lemma Marked.start (s : FS) : Marked s [] (clearMaps s) where
  mapsOnly := MapsOnly.clearMaps s
  inodeMap := by
    intro i h0 hlt
    rw [bitAt_clearMaps_inodeMap s h0 hlt]
    simp only [Bool.false_eq_true, List.not_mem_nil, false_and, exists_false]
  blockMap := by
    intro b h0 hlt
    rw [bitAt_clearMaps_blockMap s h0 hlt]
    simp only [List.not_mem_nil, false_and, exists_false, or_false]

section Traverse
variable {indirMap : Block} {s s' : FS} {seen : List ℤ} {x : ℤ}

lemma TreeImage.entriesOk (h : TreeImage s) (hx : Reach (childDirs s) (root s) x) :
    EntriesOk (dirOf s x) := by
  have hle := h.count_le x hx
  have hmax : maxDirEntry = 21 := rfl
  refine ⟨?_, h.entry_range x hx⟩
  unfold Dentry.count
  omega

lemma TreeImage.indirectOk (h : TreeImage s) (hx : Reach (childDirs s) (root s) x)
    {e : DirectoryEntry} (he : e ∈ entries (dirOf s x)) : IndirectOk (s.inode e.inode.toInt) := by
  intro hlarge
  apply h.block_range _ ((named_iff h).mp ⟨x, hx, e, he, rfl⟩)
  unfold listedBlocks
  rw [if_pos hlarge]
  exact List.mem_append_right _ List.mem_cons_self

lemma TreeImage.range (h : TreeImage s) (hx : Reach (childDirs s) (root s) x) :
    0 ≤ x ∧ x < maxInode := by
  cases hx with
  | refl => exact h.root_range
  | tail hy hx =>
    obtain ⟨e, he, rfl⟩ := List.mem_map.mp (mem_childDirs.mp hx).1
    exact h.entry_range _ hy e (List.mem_filter.mp he).1

/-- A turn of the loop marks what the directory names, and finds the directories entered from it. -/
lemma Marked.expand (h : TreeImage s) (hs : Marked s seen s') (den : Dentry)
    (hx : Reach (childDirs s) (root s) x) :
    ∃ t, Fsck.expand indirMap (s', den) x = some (t, childDirs s x) ∧ Marked s (x :: seen) t.1 := by
  obtain ⟨h0, hlt⟩ := h.dirBlock_range x hx
  have hinode := hs.mapsOnly.inode
  have hdisk := hs.mapsOnly.disk
  have hindirect : ∀ e ∈ entries (dirOf s x), IndirectOk (s'.inode e.inode.toInt) := by
    intro e he
    rw [hinode]
    exact h.indirectOk hx he
  obtain ⟨hi, hb⟩ := @foldl_mark indirMap _ _ hindirect
  rw [hinode, hdisk] at hb
  refine ⟨((entries (dirOf s x)).foldl (mark indirMap) s', dirOf s x), ?_, ?_, ?_, ?_⟩
  · unfold Fsck.expand readInode
    dsimp only
    rw [if_pos (h.range hx), hinode, readDiskBlock_eq h0 hlt]
    dsimp only
    rw [hdisk]
    exact (if_pos (h.entriesOk hx)).trans (by rw [children_congr hinode]; rfl)
  · exact hs.mapsOnly.trans (MapsOnly.foldl (mark_mapsOnly indirMap) _ s')
  · intro i h0 hlt
    rw [hi, hs.inodeMap i h0 hlt, List.exists_mem_cons_iff, or_comm]
  · intro b h0 hlt
    rw [hb, hs.blockMap b h0 hlt, List.exists_mem_cons_iff, or_assoc, or_comm (a := ∃ y ∈ seen, _)]

end Traverse

/-- When everything is taken, the maps are exact. -/
lemma Marked.exact {s s' : FS} {seen : List ℤ} (h : TreeImage s) (hs : Marked s seen s')
    (hseen : ∀ x, x ∈ seen ↔ Reach (childDirs s) (root s) x) : Exact s' := by
  have hinode := hs.mapsOnly.inode
  have hdisk := hs.mapsOnly.disk
  have hsame := hs.mapsOnly.reachable_eq
  have hnamed : ∀ i, (∃ x ∈ seen, ∃ e ∈ entries (dirOf s x), i = e.inode.toInt) ↔
      Reachable s i := by
    intro i
    rw [← named_iff h]
    simp only [hseen]
  constructor
  · intro i h0 hlt
    rw [hs.inodeMap i h0 hlt, hnamed, hsame]
  · intro b h0 hlt
    rw [hs.blockMap b h0 hlt, hinode, hdisk]
    apply or_congr_right
    constructor
    · rintro ⟨x, hx, e, he, hb⟩
      have hreach := (hnamed _).mp ⟨x, hx, e, he, rfl⟩
      rw [hsame]
      exact ⟨_, hreach, hb⟩
    · rintro ⟨i, hi, hb⟩
      rw [hsame] at hi
      obtain ⟨x, hx, e, he, rfl⟩ := (hnamed i).mpr hi
      exact ⟨x, hx, e, he, hb⟩

lemma startLocals_bounded (junk : Junk) (s : FS) : Bounded (startLocals junk s) :=
  ⟨by change (-1 : ℤ) ≤ 0; decide, by change (0 : ℤ) < 5000; decide⟩

lemma stack_startLocals (junk : Junk) (s : FS) : stack (startLocals junk s) = [root s] := by
  have hone : ((startLocals junk s).dirP + 1).toNat = 1 := rfl
  have hdir : (startLocals junk s).dir 0 = root s := by
    change Function.update (fun _ => junk.ret) 0 (root s) 0 = root s
    exact Function.update_self ..
  unfold stack
  rw [hone, List.range_one, List.map_singleton, List.reverse_singleton]
  exact congrArg (fun z => [z]) hdir

/-- On a tree of directories the traversal ends within the array, and the maps are exact. -/
lemma TreeImage.rebuild {s : FS} (h : TreeImage s) (junk : Junk) :
    ∃ fuel w, whileLoop junk.buf fuel (startLocals junk s) = .ok w ∧ MapsOnly s w.fs ∧
      Exact w.fs := by
  have hall : ∀ x, Reach (childDirs s) (root s) x → x ∈ Finset.Ico (0 : ℤ) maxInode := by
    intro x hx
    rw [Finset.mem_Ico]
    exact h.range hx
  have hcap : (Finset.Ico (0 : ℤ) maxInode).card ≤ 5000 := by
    rw [Int.card_Ico]
    decide
  obtain ⟨t, seen, hends, hcovers, hmarked⟩ : ∃ t seen,
      Ends (expand junk.buf) 5000 (clearMaps s, junk.dir) [root s] t ∧
        Covers (childDirs s) (root s) seen [] ∧ Marked s seen t.1 :=
    h.tree.ends (I := fun (st : FS × Dentry) seen => Marked s seen st.1) hall hcap
    (fun st seen x rest hst hcov =>
      hst.expand h st.2 (hcov.reach x (List.mem_append_right _ List.mem_cons_self)))
    (Covers.start _ _) (Marked.start s)
  obtain ⟨fuel, w, hrun, hw⟩ := exists_whileLoop (w := startLocals junk s) hends
    (startLocals_bounded junk s) rfl (stack_startLocals junk s)
  have hfs : w.fs = t.1 := congrArg Prod.fst hw
  refine ⟨fuel, w, hrun, ?_, ?_⟩
  · rw [hfs]
    exact hmarked.mapsOnly
  · rw [hfs]
    exact hmarked.exact h hcovers.mem_iff

/-- When the counters do not agree with the bitmaps, `correct` ends and never leaves its array, and
the bitmaps hold what the root reaches, nothing more and nothing less. -/
theorem correct_rebuilds {s : FS} (h : TreeImage s) (hbad : countersAgree s = false) (junk : Junk) :
    ∃ fuel s', correct junk fuel s = .ok s' ∧
      (∀ i : ℤ, 0 ≤ i → i < maxInode → (bitAt s'.inodeMap i = true ↔ Reachable s i)) ∧
      (∀ b : ℤ, 0 ≤ b → b < maxBlock → (bitAt s'.blockMap b = true ↔
        b < firstDataBlock ∨ ∃ i, Reachable s i ∧ b ∈ listedBlocks s.disk (s.inode i))) ∧
      s'.inode = s.inode ∧ s'.superBlock = s.superBlock ∧ s'.disk = s.disk := by
  obtain ⟨fuel, w, hrun, hmaps, hexact⟩ := h.rebuild junk
  have hinode := hmaps.inode
  have hdisk := hmaps.disk
  have hreach := hmaps.reachable_eq
  refine ⟨fuel, w.fs, ?_, ?_, ?_, hinode, hmaps.superBlock, hdisk⟩
  · unfold correct
    rw [hbad, hrun]
    rfl
  · intro i h0 hlt
    rw [hexact.inodeMap i h0 hlt, hreach]
  · intro b h0 hlt
    rw [hexact.blockMap b h0 hlt, hreach, hinode, hdisk]

/-! ## Lost bitmaps -/

/-- The disk with the directory and the large file, mounted again with empty bitmaps. -/
def lostMaps : FS := loaded (lostImage nested)

lemma nested_block : firstDataBlock ≤ nested.curDirBlock ∧ nested.curDirBlock < maxBlock :=
  nested_intact.mountable.curDirBlock_range

lemma holds_lostMaps : Holds nested lostMaps :=
  holds_loaded nested_intact Junk.zero fun _ => lostImage_eq nested_block.1 nested_block.2

lemma lostMaps_treeImage : TreeImage lostMaps := holds_lostMaps.treeImage nested_intact

lemma lostMaps_disagrees : countersAgree lostMaps = false := by
  apply lost_disagrees nested_block.1 nested_block.2
  rw [nested_inodes.2.2.2.1]
  decide

/-- The bits of the inodes and the bits of the blocks of the file are back. -/
theorem correct_rebuilds_lostMaps : ∃ fuel s', correct Junk.zero fuel lostMaps = .ok s' ∧
    (∀ i : ℤ, 0 ≤ i → i < maxInode →
      (bitAt s'.inodeMap i = true ↔ bitAt nested.inodeMap i = true)) ∧
      ∀ b ∈ fileBlocks nested.disk (nested.inode 2), bitAt s'.blockMap b = true := by
  obtain ⟨fuel, s', hrun, hinodes, hblocks, -⟩ :=
    correct_rebuilds lostMaps_treeImage lostMaps_disagrees Junk.zero
  refine ⟨fuel, s', hrun, fun i h0 hlt => ?_, fun b hb => ?_⟩
  · rw [hinodes i h0 hlt, holds_lostMaps.reachable_iff nested_intact]
    exact ⟨fun hi => hi.2.2, fun hbit => ⟨h0, hlt, hbit⟩⟩
  · have hfile := nested_isFile
    rw [← owned_file hfile.2] at hb
    have hmarked := nested_intact.store.marked hfile.1 hb
    rw [hblocks b hmarked.1 hmarked.2.1]
    refine Or.inr ⟨2, (holds_lostMaps.reachable_iff nested_intact).mpr hfile.1, ?_⟩
    rwa [holds_lostMaps.listedBlocks_eq nested_intact hfile.1]

end OsProjects.Fsck
