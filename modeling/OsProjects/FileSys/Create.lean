import OsProjects.FileSys.FileSteps

/-!
# Creating and copying files

Both commands take an inode, enter it in the directory, take the blocks one by
one and fill them.  They differ in where the contents come from.
-/

namespace OsProjects.FileSys
open FirstFit

/-- An inode and its blocks are taken, the inode is written and the entry is added. -/
lemma made_of_took {s s₁ t s₂ s' : FS} {name : List UInt8} {i : Int32} {node : Inode}
    (hblocks : BlocksCounted s) (hroom : s.curDir.count < 21) (hinode : TookInode s i s₁)
    (ht : t = { s₁ with curDir := t.curDir }) (htook : Took t (owned s₂.disk node) s₂)
    (hlink : node.linkCount = 1) (hcurDir : s'.curDir = s.curDir.add name i.toInt)
    (h' : s' = { writeInode s₂ i.toInt node with curDir := s'.curDir, stdout := s'.stdout }) :
    Made s name i s' := by
  have hnode : s'.inode i.toInt = node := by
    rw [h']
    exact Function.update_self ..
  have hdisk : s'.disk = s₂.disk := by
    rw [h']
    rfl
  have hblockMap : s'.blockMap = s₂.blockMap := by
    rw [h']
    rfl
  -- the inode was taken before the blocks, and its slot is written after them
  have hblockMap₁ : t.blockMap = s.blockMap := by
    rw [ht, hinode.eq]
  have hinodeMap : s'.inodeMap = s₁.inodeMap := by
    rw [h']
    change s₂.inodeMap = _
    rw [htook.eq, ht]
  refine { nonneg := hinode.nonneg, lt_max := hinode.lt_max, fresh := hinode.fresh, room := hroom,
           curDir := hcurDir, curDirBlock := ?_, inodeMap := ?_, inode := ?_, linkCount := ?_,
           nodup := ?_, free := ?_, used := ?_, disk := ?_, inodes := ?_, blocks := ?_ }
  · rw [h']
    change s₂.curDirBlock = _
    rw [htook.eq, ht, hinode.eq]
  · rw [hinodeMap, hinode.inodeMap]
  · intro j hj
    rw [h']
    refine (Function.update_of_ne hj ..).trans ?_
    rw [htook.eq, ht, hinode.eq]
  · rw [hnode, hlink]
  · rw [hnode, hdisk]
    exact htook.nodup
  · rw [hnode, hdisk, ← hblockMap₁]
    exact htook.free
  · rw [hnode, hdisk, hblockMap, ← hblockMap₁]
    exact htook.used
  · rw [hnode, hdisk]
    intro b hb
    rw [htook.disk b hb, ht, hinode.eq]
  · have hcount : s'.superBlock.freeInodeCount = s₁.superBlock.freeInodeCount := by
      rw [h']
      change s₂.superBlock.freeInodeCount = _
      rw [htook.eq, ht]
    have hcounted := hinode.counted
    unfold InodesCounted at hcounted ⊢
    rw [hcount, hinodeMap]
    exact hcounted
  · have hcount : BlocksCounted t := by
      unfold BlocksCounted
      rw [ht, hinode.eq]
      exact hblocks
    have hcount' := htook.counted hcount
    unfold BlocksCounted at hcount' ⊢
    rw [hblockMap, h']
    exact hcount'

/-- The end of both commands: a filled inode is written. -/
lemma made_of_fill {s s₁ t s₂ s' : FS} {name : List UInt8} {i : Int32} {newInode node : Inode}
    {content : ℕ → Block} (hs : Store s) (hroom : s.curDir.count < 21) (hinode : TookInode s i s₁)
    (ht : { s₁ with curDir := s₁.curDir.add name i.toInt } = t)
    (hok : FileOk newInode) (hfile : newInode.type = .file) (hlink : newInode.linkCount = 1)
    (hfill : Filled content newInode node t s₂) (h' : Printed (writeInode s₂ i.toInt node) s') :
    Made s name i s' ∧ (s'.inode i.toInt).type = .file ∧ FileOk (s'.inode i.toInt) ∧
      (s'.inode i.toInt).size = newInode.size ∧
      ∀ k < (s'.inode i.toInt).blocks,
        s'.disk (dataBlock s'.disk (s'.inode i.toInt) k) = content k := by
  obtain ⟨htook, hcontent, hnode⟩ := hfill
  unfold Printed at h'
  have hdisk : s'.disk = s₂.disk := by
    rw [h']
    rfl
  have hcurDir : s'.curDir = s.curDir.add name i.toInt := by
    rw [h']
    change s₂.curDir = _
    rw [htook.eq, ← ht, hinode.eq]
  have hnode' : s'.inode i.toInt = node := by
    rw [h']
    exact Function.update_self ..
  have htype : node.type = .file := by
    rw [hnode]
    exact hfile
  have howned : Took t (owned s₂.disk node) s₂ := by
    rw [owned_file htype]
    exact htook
  have ht' : t = { s₁ with curDir := t.curDir } := by rw [← ht]
  have hlink' : node.linkCount = 1 := by
    rw [hnode]
    exact hlink
  have hmade := made_of_took hs.blocks hroom hinode ht' howned hlink' hcurDir (by rw [h'])
  refine ⟨hmade, ?_, ?_, ?_, ?_⟩
  · rw [hnode', htype]
  · rw [hnode', hnode]
    exact ⟨hok.size_pos, hok.size_le, hok.blockCount⟩
  · rw [hnode', hnode]
  · rw [hnode', hdisk]
    intro k hk
    apply hcontent
    rw [hnode] at hk
    exact hk

/-- Output before the inode is taken does not matter. -/
lemma Made.of_printed {s s₀ s' : FS} {name : List UInt8} {i : Int32} (h₀ : Printed s s₀)
    (h : Made s₀ name i s') : Made s name i s' := by
  unfold Printed at h₀
  rw [h₀] at h
  exact { nonneg := h.nonneg, lt_max := h.lt_max, fresh := h.fresh, room := h.room,
          curDir := h.curDir, curDirBlock := h.curDirBlock, inodeMap := h.inodeMap,
          inode := h.inode, linkCount := h.linkCount, nodup := h.nodup, free := h.free,
          used := h.used, disk := h.disk, inodes := h.inodes, blocks := h.blocks }

/-- `numBlock`, as it is computed -/
lemma numBlock_eq (size : ℤ) :
    size / blockSize + (if size % blockSize > 0 then 1 else 0) = (size + 511) / 512 := by
  have h512 : ((blockSize : ℕ) : ℤ) = 512 := rfl
  rw [h512]
  split_ifs <;> omega

lemma fileOk_created (junk : Junk) {size : Int32}
    (hsize : ¬ (size.toInt ≤ 0 ∨ size.toInt > 73216)) :
    FileOk { junk.inode with
      type := .file
      size := size
      blockCount := Int32.ofInt ((size.toInt + 511) / 512)
      linkCount := 1 } := by
  refine ⟨by dsimp only; omega, by dsimp only; omega, ?_⟩
  exact Int32.toInt_ofInt_of_le (by omega) (by omega)

/-- The check of the free blocks by `file_create`, which counts the blocks from the size. -/
lemma FileOk.room_of_size {n : Inode} (h : FileOk n) {k : ℕ}
    (hroom : ¬ (if n.size.toInt > 7680 then (n.size.toInt + 511) / 512 + 1
      else (n.size.toInt + 511) / 512) > (k : ℤ)) :
    n.blocks + (if n.blocks > 15 then 1 else 0) ≤ k := by
  have hlarge := h.large_iff
  have hcast := h.blocks_cast
  split_ifs at hroom ⊢ <;> omega

/-- The check by `file_copy`, which counts them from the inode. -/
lemma FileOk.room_of_blockCount {n : Inode} (h : FileOk n) {k : ℕ}
    (hroom : ¬ (if n.size.toInt > 7680 then n.blockCount + 1 else n.blockCount).toInt > (k : ℤ)) :
    n.blocks + (if n.blocks > 15 then 1 else 0) ≤ k := by
  have hle := h.size_le
  have hcount := h.blockCount
  have hadd : (n.blockCount + 1).toInt = n.blockCount.toInt + 1 := CInt.toInt_add_one (by omega)
  apply h.room_of_size
  rw [apply_ite Int32.toInt, hadd, hcount] at hroom
  exact hroom

/-- `file_create` returns before it takes anything. -/
def CreateRefused (s : FS) (name : List UInt8) (size : Int32) : Prop :=
  (size.toInt ≤ 0 ∨ size.toInt > 73216) ∨ searchCurDir s name ≥ 0 ∨ s.curDir.full = true ∨
    s.superBlock.freeInodeCount.toInt < 1 ∨
    (if size.toInt > 7680 then (size.toInt + 511) / 512 + 1 else (size.toInt + 511) / 512) >
      s.superBlock.freeBlockCount.toInt

lemma fileCreate_refused {s : FS} {name : List UInt8} {size : Int32} (h : CreateRefused s name size)
    (junk : Junk) : ∃ s', fileCreate junk name size s = (-1, s') ∧ Printed s s' := by
  unfold CreateRefused at h
  unfold fileCreate
  dsimp only
  by_cases hsize : size.toInt ≤ 0 ∨ size.toInt > 73216
  · rw [if_pos hsize]
    exact ⟨_, rfl, Printed.printf s _⟩
  by_cases hfound : searchCurDir s name ≥ 0
  · rw [if_neg hsize, if_pos hfound]
    exact ⟨_, rfl, Printed.printf s _⟩
  by_cases hfull : s.curDir.full = true
  · rw [if_neg hsize, if_neg hfound, if_pos hfull]
    exact ⟨_, rfl, Printed.printf s _⟩
  by_cases hinode : s.superBlock.freeInodeCount.toInt < 1
  · rw [if_neg hsize, if_neg hfound, if_neg hfull, if_pos hinode]
    exact ⟨_, rfl, Printed.printf s _⟩
  have hblock : (if size.toInt > 7680 then (size.toInt + 511) / 512 + 1
      else (size.toInt + 511) / 512) > s.superBlock.freeBlockCount.toInt := by tauto
  rw [if_neg hsize, if_neg hfound, if_neg hfull, if_neg hinode, numBlock_eq, if_pos hblock]
  exact ⟨_, rfl, Printed.printf s _⟩

/-- Otherwise `file_create` makes a file whose blocks hold the generated text. -/
lemma fileCreate_made {s : FS} (hs : Ready s) {name : List UInt8} {size : Int32}
    (h : ¬ CreateRefused s name size) (junk : Junk) :
    ∃ i s', fileCreate junk name size s = (0, s') ∧ Made s name i s' ∧
      s.curDir.find name = none ∧ (s'.inode i.toInt).type = .file ∧
      FileOk (s'.inode i.toInt) ∧ (s'.inode i.toInt).size = size ∧
      ∀ k < (s'.inode i.toInt).blocks, s'.disk (dataBlock s'.disk (s'.inode i.toInt) k) =
        tmpBlock junk (randString junk size.toInt.toNat) k := by
  unfold CreateRefused at h
  simp only [not_or] at h
  obtain ⟨hsize, hfound, hfull, hinode, hblock⟩ := h
  have hfind : s.curDir.find name = none := by
    rcases hs.search name with ⟨hfind, -⟩ | ⟨-, -, -, hi⟩
    · exact hfind
    · exact absurd hi.1 hfound
  have hok := fileOk_created junk (not_or.mpr hsize)
  unfold fileCreate
  simp only [hsize, hfound, hfull, hinode, or_self, numBlock_eq, hblock, if_false,
    Bool.false_eq_true]
  generalize hn : ({ junk.inode with
    type := .file
    size := size
    blockCount := Int32.ofInt ((size.toInt + 511) / 512)
    linkCount := 1 } : Inode) = newInode at hok ⊢
  have hsize' : newInode.size = size := by rw [← hn]
  -- the text is printed before the inode is taken
  generalize htmp : randString junk size.toInt.toNat = tmp
  generalize hs₀ : printf s (str "File contents:\n" ++ tmp ++ str "\n") = s₀
  have hprint : Printed s s₀ := hs₀ ▸ Printed.printf s _
  have hs' : Ready s₀ := hs.printed hprint
  have hinode₀ : 1 ≤ s₀.superBlock.freeInodeCount.toInt := by
    rw [hprint]
    exact not_lt.mp hinode
  obtain ⟨i, s₁, hget, htook₁⟩ := getInode_took hs'.store.inodes hinode₀
  have hnonneg : ¬ i.toInt < 0 := not_lt.mpr htook₁.nonneg
  simp only [hget, hnonneg, if_false]
  generalize ht : ({ s₁ with curDir := s₁.curDir.add name i.toInt } : FS) = t
  have hleft : newInode.blocks + (if newInode.blocks > 15 then 1 else 0) ≤
      freeCount (bitAt t.blockMap) maxBlock := by
    have hblockMap : t.blockMap = s.blockMap := by
      rw [← ht, htook₁.eq, hprint]
    rw [hblockMap]
    apply hok.room_of_size
    rw [hsize', ← hs.store.blocks]
    exact hblock
  obtain ⟨node, s₂, hfill, hfilled⟩ :=
    fillFile_took (tmpBlock junk tmp) (P := fun _ => True) (fun _ _ => trivial) junk
      (str "File_create error: get_block failed\n") _ _ hok.large_iff hok.blocks_le
      (fun _ _ _ _ _ _ => rfl) (fun _ s _ => ⟨_, rfl, fun _ _ _ _ _ _ => rfl⟩) trivial hleft
  simp only [hfill]
  have hroom : s₀.curDir.count < 21 := by
    rw [hprint]
    exact hs.room hfull
  obtain ⟨hmade, hfile, hok', hsame, hcontent⟩ :=
    made_of_fill hs'.store hroom htook₁ ht hok (hn ▸ rfl) (hn ▸ rfl) hfilled (Printed.printf _ _)
  exact ⟨i, _, rfl, hmade.of_printed hprint, hfind, hfile, hok', hsame.trans hsize', hcontent⟩

/-- `file_create` prints an error, or it makes a file whose blocks hold the generated text. -/
lemma fileCreate_spec {s : FS} (hs : Ready s) (junk : Junk) (name : List UInt8) (size : Int32) :
    (∃ s', fileCreate junk name size s = (-1, s') ∧ Printed s s') ∨
      ∃ i s', fileCreate junk name size s = (0, s') ∧ Made s name i s' ∧
        s.curDir.find name = none ∧ (s'.inode i.toInt).type = .file ∧
        FileOk (s'.inode i.toInt) ∧ (s'.inode i.toInt).size = size ∧
        ∀ k < (s'.inode i.toInt).blocks, s'.disk (dataBlock s'.disk (s'.inode i.toInt) k) =
          tmpBlock junk (randString junk size.toInt.toNat) k := by
  by_cases hrefused : CreateRefused s name size
  · exact Or.inl (fileCreate_refused hrefused junk)
  · exact Or.inr (fileCreate_made hs hrefused junk)

/-- The blocks of a file are in use in `s'`, and they hold what they do in `s`. -/
def Keeps (s : FS) (n : Inode) (s' : FS) : Prop :=
  ∀ b ∈ fileBlocks s.disk n, Marked s' b ∧ s'.disk b = s.disk b

namespace Keeps
variable {s s' : FS} {n : Inode} (h : Keeps s n s')
include h

lemma took {s'' : FS} {bs : List ℤ} (htook : Took s' bs s'') : Keeps s n s'' := by
  intro b hb
  obtain ⟨⟨h0, hlt, hbit⟩, hdisk⟩ := h b hb
  exact ⟨⟨h0, hlt, (htook.used b).mpr (Or.inl hbit)⟩, (htook.disk_eq hbit).trans hdisk⟩

lemma read {b : ℤ} (hb : b ∈ fileBlocks s.disk n) (buf : Block) :
    readDiskBlock s' b buf = (s', s.disk b) := by
  obtain ⟨⟨h0, hlt, -⟩, hdisk⟩ := h b hb
  rw [readDiskBlock_eq h0 hlt, hdisk]

lemma read_direct {k : ℕ} (buf : Block) (hk15 : k < 15) (hk : k < n.blocks) :
    readDiskBlock s' (n.direct k) buf = (s', s.disk (dataBlock s.disk n k)) := by
  rw [dataBlock_of_lt hk15]
  apply h.read
  rw [← @dataBlock_of_lt s.disk n k hk15]
  exact dataBlock_mem hk

lemma read_indirect (buf : Block) (hlarge : n.blocks > 15) :
    readDiskBlock s' n.indirectBlock.toInt buf = (s', s.disk n.indirectBlock.toInt) :=
  h.read (indirectBlock_mem hlarge) buf

lemma read_listed {k : ℕ} (buf : Block) (hk15 : 15 ≤ k) (hk : k < n.blocks) :
    readDiskBlock s' (intOfBlock (s.disk n.indirectBlock.toInt) (k - 15)).toInt buf =
      (s', s.disk (dataBlock s.disk n k)) := by
  have hdata : (intOfBlock (s.disk n.indirectBlock.toInt) (k - 15)).toInt =
      dataBlock s.disk n k := (if_neg (by omega)).symm
  rw [hdata]
  exact h.read (dataBlock_mem hk) buf

end Keeps

/-- `file_copy` returns before it takes anything. -/
def CopyRefused (s : FS) (src : List UInt8) : Prop :=
  searchCurDir s src = -1 ∨ s.curDir.full = true ∨ s.superBlock.freeInodeCount.toInt < 1 ∨
    (s.inode (searchCurDir s src)).type ≠ .file ∨
    (if (s.inode (searchCurDir s src)).size.toInt > 7680 then
        (s.inode (searchCurDir s src)).blockCount + 1
      else (s.inode (searchCurDir s src)).blockCount).toInt > s.superBlock.freeBlockCount.toInt

lemma fileCopy_refused {s : FS} {src : List UInt8} (h : CopyRefused s src) (junk : Junk)
    (dest : List UInt8) : ∃ s', fileCopy junk src dest s = (-1, s') ∧ Printed s s' := by
  unfold CopyRefused at h
  unfold fileCopy readInode
  dsimp only
  generalize searchCurDir s src = j at h
  by_cases hnone : j = -1
  · rw [if_pos hnone]
    exact ⟨_, rfl, Printed.printf s _⟩
  by_cases hfull : s.curDir.full = true
  · rw [if_neg hnone, if_pos hfull]
    exact ⟨_, rfl, Printed.printf s _⟩
  by_cases hinode : s.superBlock.freeInodeCount.toInt < 1
  · rw [if_neg hnone, if_neg hfull, if_pos hinode]
    exact ⟨_, rfl, Printed.printf s _⟩
  by_cases hfile : (s.inode j).type ≠ .file
  · rw [if_neg hnone, if_neg hfull, if_neg hinode, if_pos hfile]
    exact ⟨_, rfl, Printed.printf s _⟩
  have hblock : (if (s.inode j).size.toInt > 7680 then (s.inode j).blockCount + 1
      else (s.inode j).blockCount).toInt > s.superBlock.freeBlockCount.toInt := by tauto
  rw [if_neg hnone, if_neg hfull, if_neg hinode, if_neg hfile, if_pos hblock]
  exact ⟨_, rfl, Printed.printf s _⟩

/-- Otherwise `file_copy` makes a file with the contents of the source. -/
lemma fileCopy_made {s : FS} (hs : Ready s) {src : List UInt8} (h : ¬ CopyRefused s src)
    (junk : Junk) (dest : List UInt8) :
    ∃ i s', fileCopy junk src dest s = (0, s') ∧ Made s dest i s' ∧
      Allocated s (searchCurDir s src) ∧ (s.inode (searchCurDir s src)).type = .file ∧
      (s'.inode i.toInt).type = .file ∧ FileOk (s'.inode i.toInt) ∧
      (s'.inode i.toInt).size = (s.inode (searchCurDir s src)).size ∧
      ∀ k < (s'.inode i.toInt).blocks, s'.disk (dataBlock s'.disk (s'.inode i.toInt) k) =
        s.disk (dataBlock s.disk (s.inode (searchCurDir s src)) k) := by
  unfold CopyRefused at h
  simp only [not_or, ne_eq, not_not] at h
  obtain ⟨hne, hfull, hinode, hfile, hblock⟩ := h
  have hj : Allocated s (searchCurDir s src) := by
    rcases hs.search src with ⟨-, hsearch⟩ | ⟨-, -, -, hj⟩
    · exact absurd hsearch hne
    · exact hj
  unfold fileCopy readInode
  generalize searchCurDir s src = j at hj hne hfile hblock
  have hnot : ¬ (s.inode j).type ≠ .file := not_not.mpr hfile
  simp only [hne, if_false, hfull, Bool.false_eq_true, hinode, hnot, hblock]
  obtain ⟨i, s₁, hget, htook₁⟩ := getInode_took hs.store.inodes (by omega)
  have hnonneg : ¬ i.toInt < 0 := not_lt.mpr htook₁.nonneg
  simp only [hget, hnonneg, if_false]
  have hsrc := hs.store.files j hj hfile
  have hmarked : ∀ b ∈ fileBlocks s.disk (s.inode j), Marked s b := fun b hb =>
    hs.store.marked hj (owned_file hfile ▸ hb)
  generalize hn : ({ junk.inode with
    type := .file
    size := (s.inode j).size
    blockCount := (s.inode j).blockCount
    linkCount := 1 } : Inode) = newInode
  have hok : FileOk newInode := by
    rw [← hn]
    exact ⟨hsrc.size_pos, hsrc.size_le, hsrc.blockCount⟩
  have hblocks : newInode.blocks = (s.inode j).blocks := by
    rw [← hn]
    rfl
  generalize ht : ({ s₁ with curDir := s₁.curDir.add dest i.toInt } : FS) = t
  have hblockMap : t.blockMap = s.blockMap := by
    rw [← ht, htook₁.eq]
  have hdisk : t.disk = s.disk := by
    rw [← ht, htook₁.eq]
  have hleft : newInode.blocks + (if newInode.blocks > 15 then 1 else 0) ≤
      freeCount (bitAt t.blockMap) maxBlock := by
    rw [hblocks, hblockMap]
    apply hsrc.room_of_blockCount
    rw [← hs.store.blocks]
    exact hblock
  -- only free blocks are taken, so the source reads the same while the copy is filled
  have hkeeps : Keeps s (s.inode j) t := fun b hb => by
    unfold Marked
    rw [hblockMap, hdisk]
    exact ⟨hmarked b hb, rfl⟩
  obtain ⟨node, s₂, hfill, hfilled⟩ :=
    fillFile_took (fun k => s.disk (dataBlock s.disk (s.inode j) k))
      (fun hP htook => hP.took htook) junk (str "File copy error: get_block failed\n")
      (fun i s' buf => readDiskBlock s' ((s.inode j).direct i) buf)
      (fun s' => ((readDiskBlock s' (s.inode j).indirectBlock.toInt junk.buf).1,
        fun i s'' buf => readDiskBlock s'' (intOfBlock
          (readDiskBlock s' (s.inode j).indirectBlock.toInt junk.buf).2 (i - 15)).toInt buf))
      hok.large_iff hok.blocks_le
      (fun k s' buf hk15 hk hP => hP.read_direct buf hk15 (hblocks ▸ hk))
      (fun hlarge s' hP => by
        rw [hP.read_indirect junk.buf (hblocks ▸ hlarge)]
        exact ⟨_, rfl, fun k s'' buf hk15 hk hP' => hP'.read_listed buf hk15 (hblocks ▸ hk)⟩)
      hkeeps hleft
  simp only [hfill]
  obtain ⟨hmade, hfile', hok', hsize, hcontent⟩ :=
    made_of_fill hs.store (hs.room hfull) htook₁ ht hok (hn ▸ rfl) (hn ▸ rfl) hfilled
      (Printed.refl _)
  refine ⟨i, _, rfl, hmade, hj, hfile, hfile', hok', ?_, hcontent⟩
  rw [hsize, ← hn]

/-- `file_copy` prints an error, or it makes a file with the contents of the source. -/
lemma fileCopy_spec {s : FS} (hs : Ready s) (junk : Junk) (src dest : List UInt8) :
    (∃ s', fileCopy junk src dest s = (-1, s') ∧ Printed s s') ∨
      ∃ i s', fileCopy junk src dest s = (0, s') ∧ Made s dest i s' ∧
        Allocated s (searchCurDir s src) ∧ (s.inode (searchCurDir s src)).type = .file ∧
        (s'.inode i.toInt).type = .file ∧ FileOk (s'.inode i.toInt) ∧
        (s'.inode i.toInt).size = (s.inode (searchCurDir s src)).size ∧
        ∀ k < (s'.inode i.toInt).blocks, s'.disk (dataBlock s'.disk (s'.inode i.toInt) k) =
          s.disk (dataBlock s.disk (s.inode (searchCurDir s src)) k) := by
  by_cases hrefused : CopyRefused s src
  · exact Or.inl (fileCopy_refused hrefused junk dest)
  · exact Or.inr (fileCopy_made hs hrefused junk dest)

/-! ## All of them -/

def fileCommands : List (List UInt8) :=
  [str "create", str "cat", str "rm", str "ls", str "stat", str "df", str "ln", str "cp"]

lemma fileCreate_step {s : FS} (hs : Ready s) (junk : Junk) (name : List UInt8) (size : Int32) :
    FileStep s (fileCreate junk name size s).2 := by
  rcases fileCreate_spec hs junk name size with
    ⟨s', heq, hprint⟩ | ⟨i, s', heq, hmade, -, hfile, hok, -⟩
  · rw [heq]
    exact .print hprint
  · rw [heq]
    exact .make hmade hfile hok

lemma fileCopy_step {s : FS} (hs : Ready s) (junk : Junk) (src dest : List UInt8) :
    FileStep s (fileCopy junk src dest s).2 := by
  rcases fileCopy_spec hs junk src dest with
    ⟨s', heq, hprint⟩ | ⟨i, s', heq, hmade, -, -, hfile, hok, -⟩
  · rw [heq]
    exact .print hprint
  · rw [heq]
    exact .make hmade hfile hok

lemma executeCommand_step {s : FS} (hs : Ready s) (junk : Junk) {line : Line}
    (hline : line.comm ∈ fileCommands) : FileStep s (executeCommand junk line s).2 := by
  obtain ⟨comm, arg1, arg2, numArg⟩ := line
  have hnot : ∀ comm', comm' ∉ fileCommands → command comm comm' = false := by
    intro comm' hcomm
    rw [← Bool.not_eq_true, command_iff]
    rintro rfl
    exact hcomm hline
  have hmkdir := hnot (str "mkdir") (by decide)
  have hrmdir := hnot (str "rmdir") (by decide)
  have hcd := hnot (str "cd") (by decide)
  unfold executeCommand
  simp only [hmkdir, hrmdir, hcd, Bool.false_eq_true, if_false]
  have husage : ∀ text, FileStep s (printf s text) := fun text => .print (Printed.printf s text)
  split_ifs
  · exact husage _
  · exact fileCreate_step hs junk _ _
  · exact husage _
  · exact .print (fileCat_printed junk _ s)
  · exact husage _
  · exact fileRemove_step hs junk _
  · exact .print (ls_printed s)
  · exact husage _
  · exact .print (fileStat_printed junk _ s)
  · exact .print (fsStat_printed junk s)
  · exact husage _
  · exact hardLink_step hs _ _
  · exact husage _
  · exact fileCopy_step hs junk _ _
  · exact .print (Printed.refl s)

end OsProjects.FileSys
