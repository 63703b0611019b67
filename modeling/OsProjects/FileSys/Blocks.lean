import OsProjects.FileSys.Alloc

/-!
# The blocks of a file

Which blocks belong to an inode, and what the loops over them do in `file_create`,
`file_copy` and `file_remove`.
-/

namespace OsProjects.FileSys
open FirstFit

/-- The turns of a loop up to `blockCount`. -/
def Inode.blocks (n : Inode) : ℕ := n.blockCount.toInt.toNat

/-- The block that holds the part `k` of a file. -/
def dataBlock (disk : ℤ → Block) (n : Inode) (k : ℕ) : ℤ :=
  if k < 15 then n.direct k else (intOfBlock (disk n.indirectBlock.toInt) (k - 15)).toInt

/-- The blocks of a file: direct ones, the indirect block and those listed in it. -/
def fileBlocks (disk : ℤ → Block) (n : Inode) : List ℤ :=
  (List.range (min 15 n.blocks)).map (dataBlock disk n) ++
    if n.blocks > 15 then
      n.indirectBlock.toInt ::
        (List.range (n.blocks - 15)).map fun i => dataBlock disk n (15 + i)
    else []

/-- The blocks of an inode. -/
def owned (disk : ℤ → Block) (n : Inode) : List ℤ :=
  match n.type with
  | .file => fileBlocks disk n
  | .directory => [n.direct 0]

variable {disk disk' : ℤ → Block} {n : Inode} {k : ℕ}

lemma dataBlock_of_lt (h : k < 15) : dataBlock disk n k = n.direct k := if_pos h

lemma dataBlock_listed (i : ℕ) :
    dataBlock disk n (15 + i) = (intOfBlock (disk n.indirectBlock.toInt) i).toInt := by
  rw [dataBlock, if_neg (by omega), Nat.add_sub_cancel_left]

lemma dataBlock_mem (h : k < n.blocks) : dataBlock disk n k ∈ fileBlocks disk n := by
  unfold fileBlocks
  rw [List.mem_append]
  by_cases hk : k < 15
  · exact Or.inl (List.mem_map.mpr ⟨k, List.mem_range.mpr (by omega), rfl⟩)
  · rw [if_pos (by omega)]
    refine Or.inr (List.mem_cons_of_mem _ (List.mem_map.mpr ⟨k - 15, ?_, ?_⟩))
    · exact List.mem_range.mpr (by omega)
    · exact congrArg (dataBlock disk n) (by omega)

lemma indirectBlock_mem (h : n.blocks > 15) : n.indirectBlock.toInt ∈ fileBlocks disk n := by
  unfold fileBlocks
  rw [if_pos h]
  exact List.mem_append_right _ List.mem_cons_self

/-- The blocks depend on the disk through the indirect block only. -/
lemma dataBlock_congr (h : k ≥ 15 → disk' n.indirectBlock.toInt = disk n.indirectBlock.toInt) :
    dataBlock disk' n k = dataBlock disk n k := by
  unfold dataBlock
  split_ifs with hk
  · rfl
  · rw [h (by omega)]

lemma fileBlocks_congr
    (h : n.blocks > 15 → disk' n.indirectBlock.toInt = disk n.indirectBlock.toInt) :
    fileBlocks disk' n = fileBlocks disk n := by
  have hdirect : (List.range (min 15 n.blocks)).map (dataBlock disk' n) =
      (List.range (min 15 n.blocks)).map (dataBlock disk n) := by
    apply List.map_congr_left
    intro k hk
    rw [List.mem_range] at hk
    apply dataBlock_congr
    omega
  unfold fileBlocks
  rw [hdirect]
  by_cases hn : n.blocks > 15
  · have hlisted : ∀ i, dataBlock disk' n (15 + i) = dataBlock disk n (15 + i) :=
      fun i => dataBlock_congr fun _ => h hn
    simp only [if_pos hn, hlisted]
  · rw [if_neg hn, if_neg hn]

lemma owned_congr (h : ∀ b ∈ owned disk n, disk' b = disk b) : owned disk' n = owned disk n := by
  unfold owned at *
  cases htype : n.type with
  | file =>
    rw [htype] at h
    exact fileBlocks_congr fun hn => h _ (indirectBlock_mem hn)
  | directory => rfl

/-! ## Giving back the blocks of a file -/

lemma freeFile_gave {s : FS} (junk : Junk) (i : ℤ) (n : Inode)
    (h : ∀ b ∈ fileBlocks s.disk n, 0 ≤ b ∧ b < maxBlock) :
    ∃ s', Gave s (fileBlocks s.disk n) s' ∧ freeFile junk s i n = freeInode s' i := by
  have hdirect : (List.range (min 15 n.blocks)).map n.direct =
      (List.range (min 15 n.blocks)).map (dataBlock s.disk n) := by
    apply List.map_congr_left
    intro k hk
    rw [List.mem_range] at hk
    rw [dataBlock_of_lt (by omega)]
  have hfirst := foldl_freeBlock_gave (s := s) fun b hb =>
    h b (List.mem_append_left _ (hdirect ▸ hb))
  unfold freeFile
  by_cases hn : n.blocks > 15
  · obtain ⟨hi0, hilt⟩ := h _ (indirectBlock_mem hn)
    have hdisk := congrArg FS.disk hfirst.eq
    have hlisted : ((List.range (n.blocks - 15)).map fun i =>
        (intOfBlock (s.disk n.indirectBlock.toInt) i).toInt) =
          (List.range (n.blocks - 15)).map fun i => dataBlock s.disk n (15 + i) :=
      List.map_congr_left fun i _ => (dataBlock_listed i).symm
    have hsecond := @foldl_freeBlock_gave
      ((List.range (n.blocks - 15)).map fun i => dataBlock s.disk n (15 + i))
      (((List.range (min 15 n.blocks)).map n.direct).foldl freeBlock s)
      fun b hb => h b (by
        unfold fileBlocks
        rw [if_pos hn]
        exact List.mem_append_right _ (List.mem_cons_of_mem _ hb))
    refine ⟨_, ((hfirst.trans hsecond).trans (freeBlock_gave hi0 hilt)).congr ?_, ?_⟩
    · intro b
      unfold fileBlocks
      rw [if_pos hn, hdirect]
      simp only [List.mem_append, List.mem_cons, List.not_mem_nil, or_false]
      tauto
    · simp only
      rw [show n.blockCount.toInt.toNat = n.blocks from rfl, if_pos hn,
        readDiskBlock_eq hi0 hilt, hdisk]
      simp only [hlisted]
  · refine ⟨_, hfirst.congr ?_, ?_⟩
    · intro b
      unfold fileBlocks
      rw [if_neg hn, hdirect, List.append_nil]
    · simp only
      rw [show n.blockCount.toInt.toNat = n.blocks from rfl, if_neg hn]

/-! ## Filling a new file -/

lemma fillInts_toInt {m : ℕ} (a : Fin m → Int32) {bs : List ℤ} {s s' : FS} (htook : Took s bs s')
    {k : ℕ} (hk : k < m) {b : ℤ} (hb : bs[k]? = some b) : (fillInts a bs ⟨k, hk⟩).toInt = b := by
  obtain ⟨h0, hlt, -⟩ := htook.free b (List.mem_of_getElem? hb)
  rw [maxBlock_eq] at hlt
  unfold fillInts
  simp only [hb]
  exact Int32.toInt_ofInt_of_le (by omega) (by omega)

lemma map_range_eq {α : Type} {f : ℕ → α} {l : List α} {n : ℕ} (hlength : l.length = n)
    (h : ∀ k b, l[k]? = some b → f k = b) : (List.range n).map f = l := by
  apply List.ext_getElem
  · rw [List.length_map, List.length_range, hlength]
  · intro k hk hk'
    rw [List.getElem_map, List.getElem_range]
    exact h k _ (List.getElem?_eq_getElem hk')

/-- The blocks of an inode from what is stored in it and in its indirect block. -/
lemma fileBlocks_filled (direct listed : List ℤ) (hlength : direct.length = min 15 n.blocks)
    (hdirect : ∀ k b, direct[k]? = some b → n.direct k = b)
    (hlisted : n.blocks > 15 → listed.length = n.blocks - 15 ∧
      ∀ k b, listed[k]? = some b → (intOfBlock (disk n.indirectBlock.toInt) k).toInt = b) :
    fileBlocks disk n =
      direct ++ if n.blocks > 15 then n.indirectBlock.toInt :: listed else [] := by
  unfold fileBlocks
  rw [map_range_eq hlength]
  · by_cases hn : n.blocks > 15
    · obtain ⟨hlength', hlisted⟩ := hlisted hn
      rw [if_pos hn, if_pos hn, map_range_eq hlength']
      intro k b hb
      rw [dataBlock_listed, hlisted k b hb]
    · rw [if_neg hn, if_neg hn]
  · intro k b hb
    have hk := (List.getElem?_eq_some_iff.mp hb).1
    rw [dataBlock_of_lt (by omega), hdirect k b hb]

/-- What `fillFile` leaves of a file: the blocks taken are those of the inode `node`, and they
hold the contents. -/
structure Filled (content : ℕ → Block) (newInode node : Inode) (s s' : FS) : Prop where
  took : Took s (fileBlocks s'.disk node) s'
  content : ∀ k < newInode.blocks, s'.disk (dataBlock s'.disk node k) = content k
  node_eq : node = { newInode with
    directBlock := node.directBlock
    indirectBlock := node.indirectBlock }

section Filled
variable {content : ℕ → Block} {newInode : Inode} {direct listed : List ℤ} {s s₁ s₂ s₃ : FS}
  (a : Fin 15 → Int32)

/-- A file without an indirect block. -/
lemma filled_direct (hblocks : newInode.blocks ≤ 15) (htook : Took s direct s₁)
    (hlength : direct.length = newInode.blocks)
    (hcontent : ∀ k b, direct[k]? = some b → s₁.disk b = content k) :
    Filled content newInode { newInode with directBlock := fillInts a direct } s s₁ := by
  generalize hnode : ({ newInode with directBlock := fillInts a direct } : Inode) = node
  have hnodeBlocks : node.blocks = newInode.blocks := by rw [← hnode]; rfl
  have hdirect : ∀ k b, direct[k]? = some b → node.direct k = b := by
    intro k b hb
    have hk := (List.getElem?_eq_some_iff.mp hb).1
    rw [← hnode, Inode.direct, dif_pos (by omega), fillInts_toInt _ htook (by omega) hb]
  constructor
  · rw [fileBlocks_filled direct [] (by omega) hdirect (by omega), if_neg (by omega),
      List.append_nil]
    exact htook
  · intro k hk
    obtain ⟨b, hb⟩ : ∃ b, direct[k]? = some b := ⟨_, List.getElem?_eq_getElem (by omega)⟩
    rw [dataBlock_of_lt (by omega), hdirect k b hb, hcontent k b hb]
  · rw [← hnode]

/-- A file whose further blocks are listed in block `b`, which is written last. -/
lemma filled_indirect {b : ℤ} (hblocks : newInode.blocks > 15) (hmax : newInode.blocks ≤ 143)
    (htook₁ : Took s direct s₁) (hlength₁ : direct.length = 15)
    (hcontent₁ : ∀ k c, direct[k]? = some c → s₁.disk c = content k)
    (htook₂ : Took s₁ [b] s₂) (htook₃ : Took s₂ listed s₃)
    (hlength₃ : listed.length = newInode.blocks - 15)
    (hcontent₃ : ∀ k c, listed[k]? = some c → s₃.disk c = content (15 + k))
    (ints : Fin 128 → Int32) :
    Filled content newInode
      { newInode with directBlock := fillInts a direct, indirectBlock := Int32.ofInt b } s
      (writeDiskBlock s₃ b (intsToBlock (fillInts ints listed))) := by
  obtain ⟨h0, hlt, -⟩ := htook₂.free b List.mem_cons_self
  have hbused : bitAt s₂.blockMap b = true := (htook₂.used b).mpr (Or.inr List.mem_cons_self)
  -- the list goes into the block taken for it before the listed ones
  have htook₄ := (htook₂.trans htook₃).write (b := b) (List.mem_append_left _ List.mem_cons_self)
    (intsToBlock (fillInts ints listed))
  generalize hs' : writeDiskBlock s₃ b (intsToBlock (fillInts ints listed)) = s' at htook₄ ⊢
  have hdisk : ∀ c,
      s'.disk c = if c = b then intsToBlock (fillInts ints listed) else s₃.disk c := by
    intro c
    rw [← hs', writeDiskBlock_eq h0 hlt]
    exact Function.update_apply ..
  generalize hnode : ({ newInode with
    directBlock := fillInts a direct
    indirectBlock := Int32.ofInt b } : Inode) = node
  have hnodeBlocks : node.blocks = newInode.blocks := by rw [← hnode]; rfl
  have hindirect : node.indirectBlock.toInt = b := by
    rw [← hnode]
    exact Int32.toInt_ofInt_of_le (by omega) (by rw [maxBlock_eq] at hlt; omega)
  have hdirect : ∀ k c, direct[k]? = some c → node.direct k = c := by
    intro k c hc
    have hk := (List.getElem?_eq_some_iff.mp hc).1
    rw [← hnode, Inode.direct, dif_pos (by omega), fillInts_toInt _ htook₁ (by omega) hc]
  have hlisted : ∀ k c, listed[k]? = some c →
      (intOfBlock (s'.disk node.indirectBlock.toInt) k).toInt = c := by
    intro k c hc
    have hk := (List.getElem?_eq_some_iff.mp hc).1
    rw [hindirect, hdisk, if_pos rfl, intOfBlock_intsToBlock _ (by omega),
      fillInts_toInt _ htook₃ (by omega) hc]
  constructor
  · rw [fileBlocks_filled direct listed (by omega) hdirect fun _ => ⟨by omega, hlisted⟩,
      if_pos (by omega), hindirect]
    exact htook₁.trans htook₄
  · intro k hk
    by_cases hk15 : k < 15
    · obtain ⟨c, hc⟩ : ∃ c, direct[k]? = some c := ⟨_, List.getElem?_eq_getElem (by omega)⟩
      have hcused := (htook₁.used c).mpr (Or.inr (List.mem_of_getElem? hc))
      rw [dataBlock_of_lt hk15, hdirect k c hc, htook₄.disk_eq hcused, hcontent₁ k c hc]
    · obtain ⟨c, hc⟩ : ∃ c, listed[k - 15]? = some c := ⟨_, List.getElem?_eq_getElem (by omega)⟩
      -- `b` was in use when the listed blocks were taken, so that writing it changes none of them
      have hcb : c ≠ b := by
        rintro rfl
        have hcfree := (htook₃.free c (List.mem_of_getElem? hc)).2.2
        rw [hbused] at hcfree
        cases hcfree
      have hsum : 15 + (k - 15) = k := by omega
      rw [← hsum, dataBlock_listed, hlisted _ c hc, hdisk, if_neg hcb, hcontent₃ _ c hc]
  · rw [← hnode]

end Filled

section Fill
variable {P : FS → Prop} (content : ℕ → Block)
  (hP : ∀ {s s' : FS} {bs : List ℤ}, P s → Took s bs s' → P s')
include hP

/-- A loop that takes blocks and writes the contents it fetches. -/
lemma allocBlocks_took (fetch : ℕ → FS → Block → FS × Block) {n i : ℕ} {s : FS} (buf : Block)
    (hfetch : ∀ k s buf, i ≤ k → k < i + n → P s → fetch k s buf = (s, content k))
    (hs : P s) (hn : n ≤ freeCount (bitAt s.blockMap) maxBlock) :
    ∃ bs s' buf', allocBlocks fetch n i (s, buf) = (some bs, s', buf') ∧ Took s bs s' ∧
      bs.length = n ∧ ∀ k b, bs[k]? = some b → s'.disk b = content (i + k) := by
  induction n generalizing i s buf with
  | zero => exact ⟨[], s, buf, rfl, Took.refl s, rfl, by simp⟩
  | succ n ih =>
    obtain ⟨b, s₁, hget, h0, htook⟩ := getBlock_took (s := s) (by omega)
    have hwritten := htook.write List.mem_cons_self (content i)
    have hleft := hwritten.left
    rw [List.length_singleton] at hleft
    obtain ⟨bs, s', buf', hrest, htook', hlength, hcontent⟩ :=
      ih (i := i + 1) (content i) (fun k s buf hik hk => hfetch k s buf (by omega) (by omega))
        (hP hs hwritten) (by omega)
    refine ⟨b :: bs, s', buf', ?_, hwritten.trans htook', by rw [List.length_cons, hlength], ?_⟩
    · rw [allocBlocks, hget]
      simp only
      rw [if_neg (by omega), hfetch i s₁ buf le_rfl (by omega) (hP hs htook)]
      simp only [hrest, Option.map_some]
    · intro k c hk
      cases k with
      | zero =>
        obtain rfl := Option.some.inj hk
        -- the block just written is in use, so that the rest of the loop leaves it alone
        obtain ⟨-, hlt, -⟩ := htook.free b List.mem_cons_self
        rw [htook'.disk_eq ((hwritten.used b).mpr (Or.inr List.mem_cons_self)),
          writeDiskBlock_eq h0 hlt]
        exact Function.update_self ..
      | succ k =>
        rw [hcontent k c hk]
        exact congrArg content (by omega)

/-- With enough free blocks no `get_block` fails. -/
lemma fillFile_took (junk : Junk) (failed : List UInt8) {newInode : Inode}
    (fetch : ℕ → FS → Block → FS × Block)
    (fetchIndirect : FS → FS × (ℕ → FS → Block → FS × Block)) {s : FS}
    (hsize : newInode.size.toInt > 7680 ↔ newInode.blocks > 15) (hmax : newInode.blocks ≤ 143)
    (hfetch : ∀ k s buf, k < 15 → k < newInode.blocks → P s → fetch k s buf = (s, content k))
    (hindirect : newInode.blocks > 15 → ∀ s, P s → ∃ fetch', fetchIndirect s = (s, fetch') ∧
      ∀ k s buf, 15 ≤ k → k < newInode.blocks → P s → fetch' k s buf = (s, content k))
    (hs : P s)
    (hfree : newInode.blocks + (if newInode.blocks > 15 then 1 else 0) ≤
      freeCount (bitAt s.blockMap) maxBlock) :
    ∃ node s', fillFile junk failed newInode fetch fetchIndirect s = (some node, s') ∧
      Filled content newInode node s s' := by
  obtain ⟨direct, s₁, buf, hdirect, htook₁, hlength₁, hcontent₁⟩ :=
    allocBlocks_took content hP fetch (n := min 15 newInode.blocks) (i := 0) junk.buf
      (fun k s buf _ hk => hfetch k s buf (by omega) (by omega)) hs (by omega)
  have hleft₁ := htook₁.left
  simp only [Nat.zero_add] at hcontent₁
  unfold fillFile
  simp only [show newInode.blockCount.toInt.toNat = newInode.blocks from rfl, hdirect]
  by_cases hblocks : newInode.blocks > 15
  · rw [if_pos hblocks] at hfree
    rw [if_pos (hsize.mpr hblocks)]
    obtain ⟨b, s₂, hget, h0, htook₂⟩ := getBlock_took (s := s₁) (by omega)
    have hleft₂ := htook₂.left
    rw [List.length_singleton] at hleft₂
    have hP₂ := hP (hP hs htook₁) htook₂
    obtain ⟨fetch', hfetchIndirect, hfetch'⟩ := hindirect hblocks s₂ hP₂
    obtain ⟨listed, s₃, buf', hlisted, htook₃, hlength₃, hcontent₃⟩ :=
      allocBlocks_took content hP fetch' (n := newInode.blocks - 15) (i := 15) buf
        (fun k s buf hk hk' => hfetch' k s buf hk (by omega)) hP₂ (by omega)
    rw [hget]
    simp only
    rw [if_neg (by omega), hfetchIndirect]
    simp only [hlisted]
    exact ⟨_, _, rfl, filled_indirect _ hblocks hmax htook₁ (by omega) hcontent₁ htook₂ htook₃
      hlength₃ hcontent₃ _⟩
  · rw [if_neg (fun h => hblocks (hsize.mp h))]
    exact ⟨_, _, rfl, filled_direct _ (by omega) htook₁ (by omega) hcontent₁⟩

end Fill

end OsProjects.FileSys
