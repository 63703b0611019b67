import OsProjects.FileSys.Blocks
import OsProjects.Library.Ownership

/-!
# Inodes and their blocks

`Store` is what the allocation of inodes and blocks has to keep: the counters are
right, and the blocks of allocated inodes are marked and owned once.  An inode
with its blocks is created by `Made` and goes by `Dropped`.
-/

namespace OsProjects.FileSys
open FirstFit Ownership

def Allocated (s : FS) (i : ℤ) : Prop := 0 ≤ i ∧ i < maxInode ∧ bitAt s.inodeMap i = true

def Marked (s : FS) (b : ℤ) : Prop := 0 ≤ b ∧ b < maxBlock ∧ bitAt s.blockMap b = true

/-- The sizes of a file inode: `blockCount` is `size / 512`, rounded up. -/
structure FileOk (n : Inode) : Prop where
  size_pos : 1 ≤ n.size.toInt
  size_le : n.size.toInt ≤ 73216
  blockCount : n.blockCount.toInt = (n.size.toInt + 511) / 512

structure Store (s : FS) : Prop where
  inodes : InodesCounted s
  blocks : BlocksCounted s
  files : ∀ i, Allocated s i → (s.inode i).type = .file → FileOk (s.inode i)
  separate : Separate (Allocated s) (fun i => owned s.disk (s.inode i)) (Marked s)

namespace FileOk
variable {n : Inode}

lemma blocks_cast (h : FileOk n) : (n.blocks : ℤ) = (n.size.toInt + 511) / 512 := by
  have hpos := h.size_pos
  have hcount := h.blockCount
  unfold Inode.blocks
  omega

lemma blocks_le (h : FileOk n) : n.blocks ≤ 143 := by
  have hle := h.size_le
  have hcast := h.blocks_cast
  omega

/-- The two tests of the source for an indirect block agree. -/
lemma large_iff (h : FileOk n) : n.size.toInt > 7680 ↔ n.blocks > 15 := by
  have hcast := h.blocks_cast
  omega

end FileOk

lemma owned_file {disk : ℤ → Block} {n : Inode} (h : n.type = .file) :
    owned disk n = fileBlocks disk n := by
  rw [owned, h]

lemma owned_directory {disk : ℤ → Block} {n : Inode} (h : n.type = .directory) :
    owned disk n = [n.direct 0] := by
  rw [owned, h]

/-- An allocated inode is not what the search returns when it finds nothing. -/
lemma Allocated.ne_neg_one {s : FS} {i : ℤ} (hi : Allocated s i) : i ≠ -1 := by
  have h0 := hi.1
  omega

lemma Store.marked {s : FS} (h : Store s) {i : ℤ} (hi : Allocated s i) {b : ℤ}
    (hb : b ∈ owned s.disk (s.inode i)) : Marked s b :=
  h.separate.used i hi b hb

/-! ## Link counts -/

/-- Only link counts, the current directory and the output change. -/
structure Relinked (s s' : FS) : Prop where
  rest : s' = { s with inode := s'.inode, curDir := s'.curDir, stdout := s'.stdout }
  inode : ∀ j, s'.inode j = { s.inode j with linkCount := (s'.inode j).linkCount }

namespace Relinked
variable {s s' : FS}

lemma allocated (h : Relinked s s') (j : ℤ) : Allocated s' j ↔ Allocated s j := by
  rw [h.rest]
  rfl

lemma marked (h : Relinked s s') : Marked s' = Marked s := by
  rw [h.rest]
  rfl

lemma type_eq (h : Relinked s s') (j : ℤ) : (s'.inode j).type = (s.inode j).type := by
  rw [h.inode j]

lemma owned_eq (h : Relinked s s') (j : ℤ) :
    owned s'.disk (s'.inode j) = owned s.disk (s.inode j) := by
  rw [h.inode j, h.rest]
  rfl

lemma store (h : Relinked s s') (hs : Store s) : Store s' where
  inodes := by
    rw [h.rest]
    exact hs.inodes
  blocks := by
    rw [h.rest]
    exact hs.blocks
  files := by
    intro j hj hfile
    obtain ⟨hpos, hle, hcount⟩ :=
      hs.files j ((h.allocated j).mp hj) ((h.type_eq j).symm.trans hfile)
    rw [h.inode j]
    exact ⟨hpos, hle, hcount⟩
  separate := by
    rw [h.marked]
    exact hs.separate.congr h.allocated (fun j _ => h.owned_eq j) fun b hb => hb

end Relinked

/-! ## A new inode -/

/-- `s'` is `s` with the inode `i` and its blocks taken, and entered in the current directory. -/
structure Made (s : FS) (name : List UInt8) (i : Int32) (s' : FS) : Prop where
  nonneg : 0 ≤ i.toInt
  lt_max : i.toInt < maxInode
  fresh : bitAt s.inodeMap i.toInt = false
  room : s.curDir.count < 21
  curDir : s'.curDir = s.curDir.add name i.toInt
  curDirBlock : s'.curDirBlock = s.curDirBlock
  inodeMap : bitAt s'.inodeMap = Function.update (bitAt s.inodeMap) i.toInt true
  inode : ∀ j, j ≠ i.toInt → s'.inode j = s.inode j
  linkCount : (s'.inode i.toInt).linkCount = 1
  nodup : (owned s'.disk (s'.inode i.toInt)).Nodup
  free : ∀ b ∈ owned s'.disk (s'.inode i.toInt),
    0 ≤ b ∧ b < maxBlock ∧ bitAt s.blockMap b = false
  used : ∀ b, bitAt s'.blockMap b = true ↔
    bitAt s.blockMap b = true ∨ b ∈ owned s'.disk (s'.inode i.toInt)
  disk : ∀ b, b ∉ owned s'.disk (s'.inode i.toInt) → s'.disk b = s.disk b
  inodes : InodesCounted s'
  blocks : BlocksCounted s'

namespace Made
variable {s s' : FS} {name : List UInt8} {i : Int32}

lemma allocated (h : Made s name i s') (j : ℤ) :
    Allocated s' j ↔ Allocated s j ∨ j = i.toInt := by
  have h0 := h.nonneg
  have hlt := h.lt_max
  unfold Allocated
  rw [h.inodeMap, Function.update_apply]
  by_cases hj : j = i.toInt
  · simp [hj, h0, hlt]
  · simp [hj]

lemma not_allocated (h : Made s name i s') : ¬ Allocated s i.toInt := by
  intro hi
  have hbit := hi.2.2
  rw [h.fresh] at hbit
  cases hbit

lemma inode_eq (h : Made s name i s') {j : ℤ} (hj : Allocated s j) : s'.inode j = s.inode j :=
  h.inode j fun hji => h.not_allocated (hji ▸ hj)

lemma marked (h : Made s name i s') (b : ℤ) :
    Marked s' b ↔ Marked s b ∨ b ∈ owned s'.disk (s'.inode i.toInt) := by
  unfold Marked
  rw [h.used]
  constructor
  · rintro ⟨h0, hlt, hbit | hbit⟩
    · exact Or.inl ⟨h0, hlt, hbit⟩
    · exact Or.inr hbit
  · rintro (⟨h0, hlt, hbit⟩ | hb)
    · exact ⟨h0, hlt, Or.inl hbit⟩
    · exact ⟨(h.free b hb).1, (h.free b hb).2.1, Or.inr hb⟩

lemma disk_eq (h : Made s name i s') {b : ℤ} (hb : Marked s b) : s'.disk b = s.disk b := by
  apply h.disk
  intro hmem
  have hbit := hb.2.2
  rw [(h.free b hmem).2.2] at hbit
  cases hbit

lemma owned_eq (h : Made s name i s') (hs : Store s) {j : ℤ} (hj : Allocated s j) :
    owned s'.disk (s'.inode j) = owned s.disk (s.inode j) := by
  rw [h.inode_eq hj]
  apply owned_congr
  intro b hb
  exact h.disk_eq (hs.marked hj hb)

lemma store (h : Made s name i s') (hs : Store s)
    (hfile : (s'.inode i.toInt).type = .file → FileOk (s'.inode i.toInt)) : Store s' where
  inodes := h.inodes
  blocks := h.blocks
  files := by
    intro j hj htype
    rcases (h.allocated j).mp hj with hj | rfl
    · rw [h.inode_eq hj] at htype ⊢
      exact hs.files j hj htype
    · exact hfile htype
  separate := by
    refine hs.separate.take h.not_allocated h.allocated (fun j hj => h.owned_eq hs hj) h.nodup ?_
      h.marked
    intro b hb hmarked
    have hbit := hmarked.2.2
    rw [(h.free b hb).2.2] at hbit
    cases hbit

end Made

/-! ## An inode that goes -/

/-- `s'` is `s` with the inode named by the entry `k` of the current directory and its blocks
given back, and without that entry. -/
structure Dropped (s : FS) (name : List UInt8) (k : ℕ) (i : ℤ) (s' : FS) : Prop where
  find : s.curDir.find name = some k
  entry : (s.curDir.entry k).inode.toInt = i
  last : ((s.inode i).linkCount - 1).toInt ≤ 0
  curDir : s'.curDir = s.curDir.remove name
  curDirBlock : s'.curDirBlock = s.curDirBlock
  inodeMap : ∀ j, bitAt s'.inodeMap j = true ↔ bitAt s.inodeMap j = true ∧ j ≠ i
  inode : ∀ j, j ≠ i → s'.inode j = s.inode j
  used : ∀ b, bitAt s'.blockMap b = true ↔
    bitAt s.blockMap b = true ∧ b ∉ owned s.disk (s.inode i)
  disk : s'.disk = s.disk
  inodes : InodesCounted s'
  blocks : BlocksCounted s'

namespace Dropped
variable {s s' : FS} {name : List UInt8} {k : ℕ} {i : ℤ}

lemma allocated (h : Dropped s name k i s') (j : ℤ) :
    Allocated s' j ↔ Allocated s j ∧ j ≠ i := by
  unfold Allocated
  rw [h.inodeMap]
  tauto

lemma marked (h : Dropped s name k i s') (b : ℤ) :
    Marked s' b ↔ Marked s b ∧ b ∉ owned s.disk (s.inode i) := by
  unfold Marked
  rw [h.used]
  tauto

lemma inode_eq (h : Dropped s name k i s') {j : ℤ} (hj : Allocated s' j) :
    s'.inode j = s.inode j :=
  h.inode j ((h.allocated j).mp hj).2

lemma owned_eq (h : Dropped s name k i s') {j : ℤ} (hj : Allocated s' j) :
    owned s'.disk (s'.inode j) = owned s.disk (s.inode j) := by
  rw [h.inode_eq hj, h.disk]

lemma store (h : Dropped s name k i s') (hs : Store s) (hi : Allocated s i) : Store s' where
  inodes := h.inodes
  blocks := h.blocks
  files := by
    intro j hj htype
    rw [h.inode_eq hj] at htype ⊢
    exact hs.files j ((h.allocated j).mp hj).1 htype
  separate := hs.separate.release hi h.allocated (fun j hj => h.owned_eq hj) fun b hb hbi =>
    (h.marked b).mpr ⟨hb, hbi⟩

end Dropped

end OsProjects.FileSys
