import OsProjects.FileSys.ChangeDir

/-!
# Commands that fail

A command that returns `-1` has printed a message and done nothing else.  What has
to be shown for this is that after an inode is taken nothing fails any more: the
guards have counted the blocks that the loops then take.
-/

namespace OsProjects.FileSys
open FirstFit

/-- The counters are right, the sizes of the files are, and the entries of the current directory
name allocated inodes, one of them as `.` -/
structure Tidy (s : FS) : Prop where
  inodes : InodesCounted s
  blocks : BlocksCounted s
  files : ∀ i, Allocated s i → (s.inode i).type = .file → FileOk (s.inode i)
  count_le : s.curDir.numEntry.toInt ≤ 21
  entries : ∀ i ∈ s.curDir.inodes, Allocated s i
  dot : ∃ k < s.curDir.count, (s.curDir.entry k).cstr = str "."

/-- If a command fails, it only prints. -/
def NoOp (s : FS) (r : ℤ × FS) : Prop := r.1 = -1 → Printed s r.2

lemma Printed.noOp {s s' : FS} (h : Printed s s') (ret : ℤ) : NoOp s (ret, s') := fun _ => h

lemma noOp_zero (s s' : FS) : NoOp s (0, s') := by
  intro h
  cases h

lemma NoOp.ite {s : FS} {p : Prop} [Decidable p] {r r' : ℤ × FS} (h : NoOp s r) (h' : NoOp s r') :
    NoOp s (if p then r else r') := by
  split_ifs
  · exact h
  · exact h'

/-! ## Taking enough blocks -/

lemma writeDiskBlock_blockMap (s : FS) (b : ℤ) (buf : Block) :
    (writeDiskBlock s b buf).blockMap = s.blockMap := by
  unfold writeDiskBlock
  split_ifs <;> rfl

lemma readDiskBlock_blockMap (s : FS) (b : ℤ) (buf : Block) :
    (readDiskBlock s b buf).1.blockMap = s.blockMap := by
  unfold readDiskBlock
  split_ifs <;> rfl

/-- While blocks are free, the loop goes on, whatever it writes. -/
lemma allocBlocks_some {fetch : ℕ → FS → Block → FS × Block}
    (hfetch : ∀ k s buf, (fetch k s buf).1.blockMap = s.blockMap) {n i : ℕ} {s : FS} {buf : Block}
    (hn : n ≤ freeCount (bitAt s.blockMap) maxBlock) :
    ∃ bs st, allocBlocks fetch n i (s, buf) = (some bs, st) ∧
      freeCount (bitAt st.1.blockMap) maxBlock + n = freeCount (bitAt s.blockMap) maxBlock := by
  induction n generalizing i s buf with
  | zero => exact ⟨[], (s, buf), rfl, Nat.add_zero _⟩
  | succ n ih =>
    obtain ⟨b, s₁, hget, h0, htook⟩ := getBlock_took (s := s) (by omega)
    have hleft := htook.left
    rw [List.length_singleton] at hleft
    have hmap :
        (writeDiskBlock (fetch i s₁ buf).1 b (fetch i s₁ buf).2).blockMap = s₁.blockMap := by
      rw [writeDiskBlock_blockMap, hfetch]
    obtain ⟨bs, st, hrest, hcount⟩ := @ih (i + 1)
      (writeDiskBlock (fetch i s₁ buf).1 b (fetch i s₁ buf).2) (fetch i s₁ buf).2
      (by rw [hmap]; omega)
    refine ⟨b :: bs, st, ?_, ?_⟩
    · rw [allocBlocks, hget]
      simp only
      rw [if_neg (by omega)]
      simp only [hrest, Option.map_some]
    · rw [hmap] at hcount
      omega

/-- The loops of `file_create` and of `file_copy` find the blocks that the guard has asked for. -/
lemma fillFile_some (junk : Junk) (failed : List UInt8) {newInode : Inode} (hok : FileOk newInode)
    (fetch : ℕ → FS → Block → FS × Block)
    (fetchIndirect : FS → FS × (ℕ → FS → Block → FS × Block)) (s : FS)
    (hfetch : ∀ k s buf, (fetch k s buf).1.blockMap = s.blockMap)
    (hindirect : ∀ s, (fetchIndirect s).1.blockMap = s.blockMap ∧
      ∀ k s' buf, ((fetchIndirect s).2 k s' buf).1.blockMap = s'.blockMap)
    (hfree : newInode.blocks + (if newInode.blocks > 15 then 1 else 0) ≤
      freeCount (bitAt s.blockMap) maxBlock) :
    ∃ node s', fillFile junk failed newInode fetch fetchIndirect s = (some node, s') := by
  obtain ⟨direct, ⟨s₁, buf⟩, hdirect, hcount₁⟩ := @allocBlocks_some fetch hfetch
    (min 15 newInode.blocks) 0 s junk.buf (by omega)
  unfold fillFile
  simp only [show newInode.blockCount.toInt.toNat = newInode.blocks from rfl, hdirect]
  by_cases hlarge : newInode.blocks > 15
  · rw [if_pos hlarge] at hfree
    rw [if_pos (hok.large_iff.mpr hlarge)]
    obtain ⟨b, s₂, hget, h0, htook⟩ := getBlock_took (s := s₁) (by dsimp only at hcount₁; omega)
    have hleft := htook.left
    rw [List.length_singleton] at hleft
    obtain ⟨hmap, hfetch'⟩ := hindirect s₂
    obtain ⟨listed, st, hlisted, -⟩ := @allocBlocks_some (fetchIndirect s₂).2 hfetch'
      (newInode.blocks - 15) 15 (fetchIndirect s₂).1 buf (by
        rw [hmap]
        dsimp only at hcount₁
        omega)
    have hne : b ≠ -1 := by omega
    simp only [hget, hne, if_false, hlisted]
    exact ⟨_, _, rfl⟩
  · rw [if_neg fun h => hlarge (hok.large_iff.mp h)]
    exact ⟨_, _, rfl⟩

namespace Tidy
variable {s : FS}

lemma search (h : Tidy s) (name : List UInt8) :
    searchCurDir s name = -1 ∨ Allocated s (searchCurDir s name) := by
  rcases searchCurDir_allocated h.entries name with ⟨-, hnone⟩ | ⟨-, -, -, hi⟩
  · exact Or.inl hnone
  · exact Or.inr hi

/-- The search for `.` succeeds. -/
lemma search_dot (h : Tidy s) : searchCurDir s (str ".") ≠ -1 := by
  obtain ⟨k, hk, hdot⟩ := h.dot
  rcases searchCurDir_allocated h.entries (str ".") with ⟨hnone, -⟩ | ⟨-, -, -, hi⟩
  · have hfalse := Dentry.find_none hnone hk
    rw [hdot] at hfalse
    cases hfalse
  · have h0 := hi.1
    omega

end Tidy

/-! ## The commands -/

lemma fileRemove_noOp (junk : Junk) (name : List UInt8) (s : FS) :
    NoOp s (fileRemove junk name s) := by
  unfold fileRemove
  dsimp only
  split_ifs
  · exact (Printed.printf s _).noOp _
  · exact (Printed.printf s _).noOp _
  · exact noOp_zero s _
  · exact noOp_zero s _

lemma hardLink_noOp (src dest : List UInt8) (s : FS) : NoOp s (hardLink src dest s) := by
  unfold hardLink
  dsimp only
  split_ifs
  · exact (Printed.printf s _).noOp _
  · exact (Printed.printf s _).noOp _
  · exact noOp_zero s _

lemma dirRemove_noOp (junk : Junk) (name : List UInt8) (s : FS) :
    NoOp s (dirRemove junk name s) := by
  unfold dirRemove
  dsimp only
  split_ifs
  · exact (Printed.printf s _).noOp _
  · exact (Printed.printf s _).noOp _
  · exact (Printed.printf s _).noOp _
  -- the block is read before the last check
  · exact ((Printed.readDiskBlock s _ _).trans (Printed.printf _ _)).noOp _
  · exact noOp_zero s _
  · exact noOp_zero s _

lemma dirChange_noOp (name : List UInt8) (s : FS) : NoOp s (dirChange name s) := by
  rcases dirChange_eq s name with ⟨hprint, -⟩ | heq
  · exact fun _ => hprint
  · rw [heq]
    exact noOp_zero s _

lemma getInode_some {s : FS} (hcount : InodesCounted s)
    (hfree : ¬ s.superBlock.freeInodeCount.toInt < 1) :
    ∃ i s₁, getInode s = (i, s₁) ∧ ¬ i < 0 ∧ s₁.blockMap = s.blockMap ∧ s₁.curDir = s.curDir := by
  obtain ⟨i, s₁, hget, htook⟩ := getInode_took hcount (by omega)
  refine ⟨i.toInt, s₁, hget, not_lt.mpr htook.nonneg, ?_, ?_⟩
  · rw [htook.eq]
  · rw [htook.eq]

/-- `dir_make` returns before it takes anything. -/
def Refused (s : FS) (name : List UInt8) : Prop :=
  command name (str ".") = true ∨ command name (str "..") = true ∨ 0 ≤ searchCurDir s name ∨
    s.curDir.full = true ∨ s.superBlock.freeInodeCount.toInt < 1

lemma dirMake_refused {s : FS} {name : List UInt8} (h : Refused s name) (junk : Junk) :
    ∃ s', dirMake junk name s = (-1, s') ∧ Printed s s' := by
  unfold dirMake
  by_cases hdots : command name (str ".") = true ∨ command name (str "..") = true
  · rw [if_pos hdots]
    exact ⟨_, rfl, Printed.printf s _⟩
  by_cases hfound : searchCurDir s name ≥ 0
  · rw [if_neg hdots, if_pos hfound]
    exact ⟨_, rfl, Printed.printf s _⟩
  by_cases hfull : s.curDir.full = true
  · rw [if_neg hdots, if_neg hfound, if_pos hfull]
    exact ⟨_, rfl, Printed.printf s _⟩
  by_cases hinode : s.superBlock.freeInodeCount.toInt < 1
  · rw [if_neg hdots, if_neg hfound, if_neg hfull, if_pos hinode]
    exact ⟨_, rfl, Printed.printf s _⟩
  unfold Refused at h
  tauto

/-- `dir_make` gets as far as the search for `.`, and that succeeds. -/
lemma dirMake_noOp {s : FS} (hs : Tidy s) (junk : Junk) (name : List UInt8) :
    NoOp s (dirMake junk name s) := by
  by_cases hrefused : Refused s name
  · obtain ⟨s', heq, hprint⟩ := dirMake_refused hrefused junk
    rw [heq]
    exact hprint.noOp _
  unfold Refused at hrefused
  simp only [not_or] at hrefused
  obtain ⟨hdot, hdotdot, hfound, hfull, hinode⟩ := hrefused
  have hdots : ¬ (command name (str ".") = true ∨ command name (str "..") = true) := by tauto
  unfold dirMake
  rw [if_neg hdots, if_neg hfound, if_neg hfull, if_neg hinode]
  obtain ⟨i, s₁, hget, -, -, hcurDir₁⟩ := getInode_some hs.inodes hinode
  have hcurDir₂ : (getBlock s₁).2.curDir = s₁.curDir := by
    unfold getBlock
    cases firstFree (getBlockMap s₁) maxBlock 0 with
    | some b => simp only [addFreeBlocks, setBlockMap]
    | none => simp only
  have hdot : ∀ (i : ℤ) (n : Inode),
      searchCurDir (writeInode (getBlock s₁).2 i n) (str ".") = searchCurDir s (str ".") := by
    intro i n
    unfold searchCurDir writeInode
    dsimp only
    rw [hcurDir₂, hcurDir₁]
  simp only [hget, hdot, hs.search_dot, if_false]
  exact noOp_zero s _

lemma fileCreate_noOp {s : FS} (hs : Tidy s) (junk : Junk) (name : List UInt8) (size : Int32) :
    NoOp s (fileCreate junk name size s) := by
  by_cases hrefused : CreateRefused s name size
  · obtain ⟨s', heq, hprint⟩ := fileCreate_refused hrefused junk
    rw [heq]
    exact hprint.noOp _
  unfold CreateRefused at hrefused
  simp only [not_or] at hrefused
  obtain ⟨hsize, hfound, hfull, hinode, hblock⟩ := hrefused
  have hok := fileOk_created junk (not_or.mpr hsize)
  unfold fileCreate
  simp only [hsize, hfound, hfull, hinode, or_self, numBlock_eq, hblock, if_false,
    Bool.false_eq_true]
  obtain ⟨i, s₁, hget, hnonneg, hblockMap, -⟩ := @getInode_some
    (printf s (str "File contents:\n" ++ randString junk size.toInt.toNat ++ str "\n"))
    hs.inodes hinode
  simp only [hget, hnonneg, if_false]
  obtain ⟨node, s₂, hfill⟩ := fillFile_some junk (str "File_create error: get_block failed\n") hok
    (fun i s (_ : Block) => (s, tmpBlock junk (randString junk size.toInt.toNat) i))
    (fun s =>
      (s, fun i s (_ : Block) => (s, tmpBlock junk (randString junk size.toInt.toNat) i)))
    { s₁ with curDir := s₁.curDir.add name i }
    (fun _ _ _ => rfl) (fun _ => ⟨rfl, fun _ _ _ => rfl⟩) (by
      apply hok.room_of_size
      rw [hblockMap]
      change ¬ _ > ((freeCount (bitAt s.blockMap) maxBlock : ℕ) : ℤ)
      rw [← hs.blocks]
      exact hblock)
  simp only [hfill]
  exact noOp_zero s _

lemma fileCopy_noOp {s : FS} (hs : Tidy s) (junk : Junk) (src dest : List UInt8) :
    NoOp s (fileCopy junk src dest s) := by
  by_cases hrefused : CopyRefused s src
  · obtain ⟨s', heq, hprint⟩ := fileCopy_refused hrefused junk dest
    rw [heq]
    exact hprint.noOp _
  unfold CopyRefused at hrefused
  simp only [not_or] at hrefused
  obtain ⟨hnone, hfull, hinode, hfile, hblock⟩ := hrefused
  have hsearch := hs.search src
  unfold fileCopy readInode
  dsimp only
  generalize searchCurDir s src = j at hsearch hnone hfile hblock
  rw [if_neg hnone, if_neg hfull, if_neg hinode, if_neg hfile, if_neg hblock]
  obtain ⟨i, s₁, hget, hnonneg, hblockMap, -⟩ := getInode_some hs.inodes hinode
  simp only [hget, hnonneg, if_false]
  have hsrc := hs.files j (hsearch.resolve_left hnone) (not_not.mp hfile)
  have hok : FileOk { junk.inode with
      type := .file
      size := (s.inode j).size
      blockCount := (s.inode j).blockCount
      linkCount := 1 } := ⟨hsrc.size_pos, hsrc.size_le, hsrc.blockCount⟩
  obtain ⟨node, s₂, hfill⟩ := fillFile_some junk (str "File copy error: get_block failed\n") hok
    (fun i s' buf => readDiskBlock s' ((s.inode j).direct i) buf)
    (fun s' =>
      ((readDiskBlock s' (s.inode j).indirectBlock.toInt junk.buf).1,
        fun i s'' buf => readDiskBlock s'' (intOfBlock
          (readDiskBlock s' (s.inode j).indirectBlock.toInt junk.buf).2 (i - 15)).toInt buf))
    { s₁ with curDir := s₁.curDir.add dest i }
    (fun _ _ _ => readDiskBlock_blockMap _ _ _)
    (fun _ => ⟨readDiskBlock_blockMap _ _ _, fun _ _ _ => readDiskBlock_blockMap _ _ _⟩) (by
      apply hok.room_of_blockCount
      rw [hblockMap, ← hs.blocks]
      exact hblock)
  simp only [hfill]
  exact noOp_zero s _

/-- A command that returns `-1` has done nothing but print.  In particular it has taken no inode,
so that the error returns after that point are not reached. -/
theorem failing_command_noOp {s : FS} (hs : Tidy s) (junk : Junk) (line : Line)
    (hret : (executeCommand junk line s).1 = -1) : Printed s (executeCommand junk line s).2 := by
  suffices h : NoOp s (executeCommand junk line s) from h hret
  obtain ⟨comm, arg1, arg2, numArg⟩ := line
  have husage : ∀ text, NoOp s (-1, printf s text) := fun text => (Printed.printf s text).noOp _
  unfold executeCommand
  refine .ite (.ite (husage _) (fileCreate_noOp hs junk _ _)) ?_
  refine .ite (.ite (husage _) fun _ => fileCat_printed junk _ s) ?_
  refine .ite (.ite (husage _) (fileRemove_noOp junk _ s)) ?_
  refine .ite (.ite (husage _) (dirMake_noOp hs junk _)) ?_
  refine .ite (.ite (husage _) (dirRemove_noOp junk _ s)) ?_
  refine .ite (.ite (husage _) (dirChange_noOp _ s)) ?_
  refine .ite (fun _ => ls_printed s) ?_
  refine .ite (.ite (husage _) fun _ => fileStat_printed junk _ s) ?_
  refine .ite (fun _ => fsStat_printed junk s) ?_
  refine .ite (.ite (husage _) (hardLink_noOp _ _ s)) ?_
  refine .ite (.ite (husage _) (fileCopy_noOp hs junk _ _)) ?_
  exact (Printed.refl s).noOp _

/-- `rm` of a file that does not exist, on a new disk. -/
theorem failing_command_noOp_rm :
    Printed mounted (executeCommand Junk.zero
      ⟨str "rm", Word.of "a", Word.of "", 1⟩ mounted).2 := by
  have hfresh : Fresh mounted := fsMountNew_eq ▸ fsMountNew_fresh
  have htidy : Tidy mounted :=
    { inodes := hfresh.inodes
      blocks := hfresh.blocks
      files := hfresh.store.files
      count_le := by decide
      entries := hfresh.dirOk_root.entries
      dot := ⟨0, by decide, by decide⟩ }
  exact failing_command_noOp htidy _ _ (by decide +kernel)

end OsProjects.FileSys
