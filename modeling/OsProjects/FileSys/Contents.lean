import OsProjects.FileSys.Consistent

/-!
# The contents of files

`file_create` writes a text into blocks, `file_cat` prints it from there.  As long
as the inode of a file is not freed, the commands in between touch neither its
blocks nor the list of them.
-/

namespace OsProjects.FileSys
open Ownership

/-- The block `b` holds the part `k` of the text `c`, up to its NUL. -/
def Part (disk : ℤ → Block) (c : List UInt8) (k : ℕ) (b : ℤ) : Prop :=
  ∀ j < 512, 512 * k + j ≤ c.length → (disk b).byteAt j = (c ++ [0]).getD (512 * k + j) 0

/-- The file `i` holds the text `c`. -/
structure Contains (s : FS) (c : List UInt8) (i : ℤ) : Prop where
  isFile : IsFile s i
  size : (s.inode i).size.toInt = c.length
  part : ∀ k < (s.inode i).blocks, Part s.disk c k (dataBlock s.disk (s.inode i) k)

/-- The blocks of a file that hold its parts, in order. -/
def dataBlocks (disk : ℤ → Block) (n : Inode) : List ℤ :=
  (List.range n.blocks).map (dataBlock disk n)

lemma length_dataBlocks (disk : ℤ → Block) (n : Inode) : (dataBlocks disk n).length = n.blocks := by
  rw [dataBlocks, List.length_map, List.length_range]

lemma getElem?_dataBlocks {disk : ℤ → Block} {n : Inode} {k : ℕ} {b : ℤ}
    (h : (dataBlocks disk n)[k]? = some b) : k < n.blocks ∧ dataBlock disk n k = b := by
  unfold dataBlocks at h
  rw [List.getElem?_map, Option.map_eq_some_iff] at h
  obtain ⟨k', hk', rfl⟩ := h
  obtain ⟨hlt, rfl⟩ := List.getElem?_eq_some_iff.mp hk'
  rw [List.length_range] at hlt
  rw [List.getElem_range]
  exact ⟨hlt, rfl⟩

/-- The blocks in the order in which the loops go over them. -/
lemma dataBlocks_split (disk : ℤ → Block) (n : Inode) :
    dataBlocks disk n = (List.range (min 15 n.blocks)).map n.direct ++
      (List.range (n.blocks - 15)).map
        fun i => (intOfBlock (disk n.indirectBlock.toInt) i).toInt := by
  have hsum : n.blocks = min 15 n.blocks + (n.blocks - 15) := by omega
  unfold dataBlocks
  conv_lhs => rw [hsum, List.range_add, List.map_append, List.map_map]
  congr 1
  · apply List.map_congr_left
    intro k hk
    rw [List.mem_range] at hk
    exact dataBlock_of_lt (by omega)
  · apply List.map_congr_left
    intro i hi
    rw [List.mem_range] at hi
    have hmin : min 15 n.blocks = 15 := by omega
    rw [Function.comp_apply, hmin, dataBlock_listed]

/-! ## Printing -/

/-- A buffer with a NUL after the text prints as the text. -/
lemma printBuf_eq (s : FS) {buf : ℕ → UInt8} {text : List UInt8} (htext : 0 ∉ text)
    (hlength : text.length ≤ 512) (hbuf : ∀ j (h : j < text.length), buf j = text[j])
    (hnul : buf text.length = 0) : printBuf s buf = printf s text := by
  unfold printBuf
  rw [takeWhile_eq htext]
  · apply List.ext_getElem
    · rw [List.length_take, List.length_map, List.length_range]
      simp only [blockSize]
      omega
    · intro j hj hj'
      rw [List.getElem_take, List.getElem_map, List.getElem_range]
      exact hbuf j hj'
  · rw [List.getElem?_map, List.getElem?_range (by simp only [blockSize]; omega)]
    exact congrArg some hnul

lemma printf_nil (s : FS) : printf s [] = s := by
  rw [printf, List.append_nil]

lemma printf_printf (s : FS) (a b : List UInt8) : printf (printf s a) b = printf s (a ++ b) := by
  unfold printf
  rw [List.append_assoc]

section Cat
variable {c : List UInt8} (hc : 0 ∉ c)
include hc

/-- One turn of the loop prints one part of the text. -/
lemma catBlock_part {s : FS} {b : ℤ} (hb : Marked s b) {k : ℕ} (hk : 512 * k < c.length)
    (hpart : Part s.disk c k b) (buf : ℕ → UInt8) :
    ∃ buf', catBlock (s, buf, (c.length : ℤ) - 512 * k) b =
      (printf s ((c.drop (512 * k)).take 512), buf', (c.length : ℤ) - 512 * ↑(k + 1)) := by
  have hbyte : ∀ j (h : j < ((c.drop (512 * k)).take 512).length),
      (s.disk b).byteAt j = ((c.drop (512 * k)).take 512)[j] := by
    intro j hj
    rw [List.length_take, List.length_drop] at hj
    rw [hpart j (by omega) (by omega), List.getElem_take, List.getElem_drop,
      List.getD_eq_getElem _ _ (by rw [List.length_append]; omega),
      List.getElem_append_left (by omega)]
  have htext : 0 ∉ (c.drop (512 * k)).take 512 := fun h0 =>
    hc (List.mem_of_mem_drop (List.mem_of_mem_take h0))
  have hdata : ∀ (buf : ℕ → UInt8) (j : ℕ), j < 512 →
      (if h : j < blockSize then s.disk b ⟨j, h⟩ else buf j) = (s.disk b).byteAt j := by
    intro buf j hj
    rw [dif_pos (by simpa only [blockSize] using hj), byteAt_of_lt]
  have hsize : (c.length : ℤ) - 512 * k - 512 = (c.length : ℤ) - 512 * ↑(k + 1) := by
    push_cast
    ring
  unfold catBlock
  simp only [readDiskBlock_eq hb.1 hb.2.1, hsize]
  rw [printBuf_eq s htext]
  · exact ⟨_, rfl⟩
  · rw [List.length_take]
    omega
  · intro j hj
    have hj' := hj
    rw [List.length_take, List.length_drop] at hj'
    split_ifs with hlong
    · rw [Function.update_of_ne (by omega), hdata buf j (by omega), hbyte j hj]
    · rw [Function.update_of_ne (by omega), hdata buf j (by omega), hbyte j hj]
  · rw [List.length_take, List.length_drop]
    split_ifs with hlong
    · rw [min_eq_left (by omega), Function.update_self]
    · -- the text ends in this block, and its NUL is there
      have hend : 512 * k + (c.length - 512 * k) = c.length := by omega
      rw [min_eq_right (by omega), Function.update_of_ne (by omega), hdata buf _ (by omega),
        hpart _ (by omega) (by omega), hend, List.getD_append_right _ _ _ _ le_rfl,
        Nat.sub_self]
      rfl

/-- The loop prints the parts in its blocks. -/
lemma foldl_catBlock {s : FS} (blocks : List ℤ) {k : ℕ} (buf : ℕ → UInt8)
    (hblocks : ∀ b ∈ blocks, Marked s b) (hk : 512 * (k + blocks.length) < c.length + 512)
    (hpart : ∀ t b, blocks[t]? = some b → Part s.disk c (k + t) b) :
    ∃ buf', blocks.foldl catBlock (s, buf, (c.length : ℤ) - 512 * k) =
      (printf s ((c.drop (512 * k)).take (512 * blocks.length)), buf',
        (c.length : ℤ) - 512 * ↑(k + blocks.length)) := by
  induction blocks generalizing s k buf with
  | nil =>
    refine ⟨buf, ?_⟩
    rw [List.foldl_nil, List.length_nil, Nat.mul_zero, List.take_zero, printf_nil, Nat.add_zero]
  | cons b blocks ih =>
    rw [List.length_cons] at hk
    have hpart₀ : Part s.disk c k b := hpart 0 b rfl
    obtain ⟨buf₁, hfirst⟩ := catBlock_part hc (hblocks b List.mem_cons_self) (by omega) hpart₀ buf
    obtain ⟨buf₂, hrest⟩ := ih (s := printf s ((c.drop (512 * k)).take 512)) (k := k + 1) buf₁
      (fun b' hb' => hblocks b' (List.mem_cons_of_mem b hb')) (by omega)
      (fun t b' hb' => by
        have hsum : k + 1 + t = k + (t + 1) := by omega
        rw [hsum]
        exact hpart (t + 1) b' hb')
    refine ⟨buf₂, ?_⟩
    have hdrop : c.drop (512 * (k + 1)) = (c.drop (512 * k)).drop 512 := by
      rw [List.drop_drop]
      congr 1
    have htake : 512 * (blocks.length + 1) = 512 + 512 * blocks.length := by omega
    rw [List.foldl_cons, hfirst, hrest, printf_printf, List.length_cons, htake, List.take_add,
      hdrop, Nat.add_right_comm k 1, Nat.add_assoc k]

lemma fileCat_contains {s : FS} (hs : Store s) (junk : Junk) {name : List UInt8}
    (h : Contains s c (searchCurDir s name)) :
    fileCat junk name s = (0, printf s c) := by
  generalize hi : searchCurDir s name = i at h
  have hne := h.isFile.1.ne_neg_one
  have hok := hs.files i h.isFile.1 h.isFile.2
  have hcast := hok.blocks_cast
  have hsize := h.size
  have hmarked : ∀ b ∈ fileBlocks s.disk (s.inode i), Marked s b := fun b hb =>
    hs.marked h.isFile.1 (owned_file h.isFile.2 ▸ hb)
  obtain ⟨buf, hfold⟩ := foldl_catBlock hc (dataBlocks s.disk (s.inode i)) (s := s) (k := 0)
    junk.mem
    (fun b hb => by
      obtain ⟨k, hk, rfl⟩ := List.mem_map.mp hb
      exact hmarked _ (dataBlock_mem (List.mem_range.mp hk)))
    (by rw [length_dataBlocks]; omega)
    (fun k b hb => by
      obtain ⟨hk, rfl⟩ := getElem?_dataBlocks hb
      rw [Nat.zero_add]
      exact h.part k hk)
  have htake : (c.drop (512 * 0)).take (512 * (dataBlocks s.disk (s.inode i)).length) = c := by
    rw [Nat.mul_zero, List.drop_zero, List.take_of_length_le]
    rw [length_dataBlocks]
    omega
  have hstart : (c.length : ℤ) - 512 * ↑(0 : ℕ) = (s.inode i).size.toInt := by
    rw [hsize]
    simp
  -- the code has one loop for the direct blocks and one for the listed ones
  rw [htake, hstart, dataBlocks_split, List.foldl_append] at hfold
  unfold fileCat readInode
  simp only [hi, hne, if_false]
  have hcount : (s.inode i).blockCount.toInt.toNat = (s.inode i).blocks := rfl
  generalize hloop :
    ((List.range (min 15 (s.inode i).blocks)).map (s.inode i).direct).foldl catBlock
      (s, junk.mem, (s.inode i).size.toInt) = st at hfold
  have hprint : Printed s st.1 := hloop ▸ Printed.foldl catBlock_printed _ (s, junk.mem, _)
  simp only [hcount, hloop]
  by_cases hlarge : (s.inode i).blocks > 15
  · -- the list of the remaining blocks is read from where it was before the first loop
    have hread : readDiskBlock st.1 (s.inode i).indirectBlock.toInt junk.buf =
        (st.1, s.disk (s.inode i).indirectBlock.toInt) := by
      obtain ⟨h0, hlt, -⟩ := hmarked _ (indirectBlock_mem hlarge)
      rw [readDiskBlock_eq h0 hlt, hprint]
    simp only [hlarge, if_true, hread]
    exact congrArg (fun st : FS × (ℕ → UInt8) × ℤ => ((0 : ℤ), st.1)) hfold
  · have hnil : (s.inode i).blocks - 15 = 0 := by omega
    rw [hnil] at hfold
    simp only [hlarge, if_false]
    exact congrArg (fun st : FS × (ℕ → UInt8) × ℤ => ((0 : ℤ), st.1)) hfold

end Cat

end OsProjects.FileSys
