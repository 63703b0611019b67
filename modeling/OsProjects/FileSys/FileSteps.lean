import OsProjects.FileSys.Store
import OsProjects.FileSys.Command

/-!
# What the file commands do

A file command prints something, creates a file, adds a link, or removes one,
with the file when it was the last.
-/

namespace OsProjects.FileSys
open FirstFit Ownership

/-- Only the output changes. -/
def Printed (s s' : FS) : Prop := s' = { s with stdout := s'.stdout }

/-- What a command finds: the allocation is in order, and the entries of the current directory
name allocated inodes. -/
structure Ready (s : FS) : Prop where
  store : Store s
  fits : s.curDir.Fits
  entries : ∀ i ∈ s.curDir.inodes, Allocated s i

/-- One more entry for `i` in the current directory, and one more link. -/
def linked (s : FS) (i : ℤ) (dest : List UInt8) : FS :=
  { writeInode s i { s.inode i with linkCount := (s.inode i).linkCount + 1 } with
    curDir := s.curDir.add dest i }

/-- One link less for `i`, and the first entry of that name goes. -/
def unlinked (s : FS) (i : ℤ) (name : List UInt8) : FS :=
  { writeInode s i { s.inode i with linkCount := (s.inode i).linkCount - 1 } with
    curDir := s.curDir.remove name }

lemma linked_relinked (s : FS) (i : ℤ) (dest : List UInt8) : Relinked s (linked s i dest) where
  rest := rfl
  inode := by
    intro j
    by_cases hj : j = i
    · rw [hj]
      simp only [linked, writeInode, Function.update_self]
    · simp only [linked, writeInode, Function.update_of_ne hj]

lemma unlinked_relinked (s : FS) (i : ℤ) (name : List UInt8) :
    Relinked s (unlinked s i name) where
  rest := rfl
  inode := by
    intro j
    by_cases hj : j = i
    · rw [hj]
      simp only [unlinked, writeInode, Function.update_self]
    · simp only [unlinked, writeInode, Function.update_of_ne hj]

inductive FileStep (s : FS) : FS → Prop
  | print {s' : FS} (hprint : Printed s s') : FileStep s s'
  | make {name : List UInt8} {i : Int32} {s' : FS} (hmade : Made s name i s')
      (hfile : (s'.inode i.toInt).type = .file) (hok : FileOk (s'.inode i.toInt)) : FileStep s s'
  | link {k : ℕ} {i : Int32} (dest : List UInt8) (hk : k < s.curDir.count)
      (hi : (s.curDir.entry k).inode = i) (hroom : s.curDir.count < 21) :
      FileStep s (linked s i.toInt dest)
  | unlink {name : List UInt8} {k : ℕ} {i : ℤ} (hfind : s.curDir.find name = some k)
      (hi : (s.curDir.entry k).inode.toInt = i) (hfile : (s.inode i).type = .file)
      (hpos : 0 < ((s.inode i).linkCount - 1).toInt) : FileStep s (unlinked s i name)
  | drop {name : List UInt8} {k : ℕ} {i : ℤ} {s' : FS} (hdrop : Dropped s name k i s')
      (hfile : (s.inode i).type = .file) : FileStep s s'

/-! ## Printing -/

namespace Printed

lemma refl (s : FS) : Printed s s := rfl

lemma printf (s : FS) (text : List UInt8) : Printed s (printf s text) := rfl

lemma trans {s s' s'' : FS} (h : Printed s s') (h' : Printed s' s'') : Printed s s'' := by
  unfold Printed at *
  rw [h] at h'
  exact h'

lemma foldl {α β : Type} {f : FS × β → α → FS × β} (hf : ∀ st a, Printed st.1 (f st a).1)
    (l : List α) (st : FS × β) : Printed st.1 (l.foldl f st).1 := by
  induction l generalizing st with
  | nil => exact refl st.1
  | cons a l ih => exact (hf st a).trans (ih (f st a))

lemma readDiskBlock (s : FS) (block : ℤ) (buf : Block) :
    Printed s (readDiskBlock s block buf).1 := by
  unfold FileSys.readDiskBlock
  split_ifs
  · exact printf s _
  · exact refl s

end Printed

lemma catBlock_printed (st : FS × (ℕ → UInt8) × ℤ) (block : ℤ) :
    Printed st.1 (catBlock st block).1 := by
  obtain ⟨s, buf, fSize⟩ := st
  exact (Printed.readDiskBlock s block fun k => buf k).trans (Printed.printf _ _)

lemma fileCat_printed (junk : Junk) (name : List UInt8) (s : FS) :
    Printed s (fileCat junk name s).2 := by
  unfold fileCat
  simp only
  split_ifs
  · exact Printed.printf s _
  · exact ((Printed.foldl catBlock_printed _ (_, _, _)).trans (Printed.readDiskBlock _ _ _)).trans
      (Printed.foldl catBlock_printed _ (_, _, _))
  · exact Printed.foldl catBlock_printed _ (_, _, _)

lemma fileStat_printed (junk : Junk) (name : List UInt8) (s : FS) :
    Printed s (fileStat junk name s).2 := by
  unfold fileStat
  simp only
  split_ifs <;> exact Printed.printf s _

lemma ls_printed (s : FS) : Printed s (ls s).2 := by
  unfold ls
  generalize List.range s.curDir.count = l
  simp only
  have hfold : ∀ s' : FS,
      Printed s' (l.foldl (fun s i => printf s (lsLine s (s.curDir.entry i))) s') := by
    induction l with
    | nil => exact Printed.refl
    | cons i l ih => exact fun s' => (Printed.printf s' _).trans (ih _)
  exact hfold s

lemma fsStat_printed (junk : Junk) (s : FS) : Printed s (fsStat junk s).2 := Printed.printf s _

/-! ## Searching -/

/-- Where the entries name allocated inodes, the search gives one. -/
lemma searchCurDir_allocated {s : FS} (hentries : ∀ i ∈ s.curDir.inodes, Allocated s i)
    (name : List UInt8) :
    (s.curDir.find name = none ∧ searchCurDir s name = -1) ∨
      ∃ k, s.curDir.find name = some k ∧
        (s.curDir.entry k).inode.toInt = searchCurDir s name ∧
        Allocated s (searchCurDir s name) := by
  rcases searchCurDir_cases s name with hnone | ⟨k, hfind, hsearch⟩
  · exact Or.inl hnone
  · refine Or.inr ⟨k, hfind, hsearch.symm, ?_⟩
    rw [hsearch]
    apply hentries
    exact Dentry.mem_inodes.mpr ⟨k, (Dentry.find_some hfind).1, rfl⟩

namespace Ready
variable {s : FS}

lemma search (hs : Ready s) (name : List UInt8) :
    (s.curDir.find name = none ∧ searchCurDir s name = -1) ∨
      ∃ k, s.curDir.find name = some k ∧
        (s.curDir.entry k).inode.toInt = searchCurDir s name ∧
        Allocated s (searchCurDir s name) :=
  searchCurDir_allocated hs.entries name

lemma printed {s' : FS} (hs : Ready s) (h : Printed s s') : Ready s' := by
  unfold Printed at h
  rw [h]
  exact ⟨Relinked.store ⟨rfl, fun _ => rfl⟩ hs.store, hs.fits, hs.entries⟩

lemma room (hs : Ready s) (h : ¬ s.curDir.full = true) : s.curDir.count < 21 := by
  have hle := hs.fits.count_le
  rw [full_iff hs.fits] at h
  omega

end Ready

/-! ## Entries and link counts -/

lemma linked_linkCount (s : FS) (i : ℤ) (dest : List UInt8) (j : ℤ) :
    ((linked s i dest).inode j).linkCount =
      if j = i then (s.inode i).linkCount + 1 else (s.inode j).linkCount := by
  by_cases hj : j = i
  · rw [if_pos hj, hj]
    simp only [linked, writeInode, Function.update_self]
  · rw [if_neg hj]
    simp only [linked, writeInode, Function.update_of_ne hj]

lemma unlinked_linkCount (s : FS) (i : ℤ) (name : List UInt8) (j : ℤ) :
    ((unlinked s i name).inode j).linkCount =
      if j = i then (s.inode i).linkCount - 1 else (s.inode j).linkCount := by
  by_cases hj : j = i
  · rw [if_pos hj, hj]
    simp only [unlinked, writeInode, Function.update_self]
  · rw [if_neg hj]
    simp only [unlinked, writeInode, Function.update_of_ne hj]

/-- An entry and a link more for `i`. -/
lemma linked_balance {s : FS} {i : Int32} {dest : List UInt8} {j : ℤ} (hfits : s.curDir.Fits)
    (hroom : s.curDir.count < 21) (hmax : (s.inode j).linkCount.toInt < 2 ^ 31 - 1) :
    ((linked s i.toInt dest).inode j).linkCount.toInt + s.curDir.inodes.count j =
      (s.inode j).linkCount.toInt + (linked s i.toInt dest).curDir.inodes.count j := by
  have hinodes : (linked s i.toInt dest).curDir.inodes = s.curDir.inodes ++ [i.toInt] :=
    Dentry.add_inodes hfits hroom
  rw [hinodes, linked_linkCount, List.count_append, List.count_singleton]
  by_cases hj : j = i.toInt
  · rw [if_pos hj, ← hj, if_pos (beq_self_eq_true j), CInt.toInt_add_one hmax]
    omega
  · have hne : ¬ (i.toInt == j) = true := fun hij => hj (eq_of_beq hij).symm
    rw [if_neg hj, if_neg hne, Nat.add_zero]

/-- An entry and a link less for `i`. -/
lemma unlinked_balance {s : FS} {i j : ℤ} {name : List UInt8} {k : ℕ} (hfits : s.curDir.Fits)
    (hfind : s.curDir.find name = some k) (hentry : (s.curDir.entry k).inode.toInt = i)
    (hmin : -2 ^ 31 < (s.inode j).linkCount.toInt) :
    ((unlinked s i name).inode j).linkCount.toInt + s.curDir.inodes.count j =
      (s.inode j).linkCount.toInt + (unlinked s i name).curDir.inodes.count j := by
  have hget := Dentry.getElem?_inodes (Dentry.find_some hfind).1
  rw [hentry] at hget
  have hinodes : (unlinked s i name).curDir.inodes = s.curDir.inodes.eraseIdx k :=
    Dentry.remove_inodes hfits hfind
  have herase := count_eraseIdx hget j
  rw [hinodes, unlinked_linkCount]
  by_cases hj : j = i
  · rw [if_pos hj] at herase ⊢
    rw [← hj, CInt.toInt_sub_one hmin]
    omega
  · rw [if_neg hj] at herase ⊢
    omega

lemma Made.inodes_eq {s s' : FS} {name : List UInt8} {i : Int32} (h : Made s name i s')
    (hfits : s.curDir.Fits) : s'.curDir.inodes = s.curDir.inodes ++ [i.toInt] := by
  rw [h.curDir]
  exact Dentry.add_inodes hfits h.room

namespace Dropped
variable {s s' : FS} {name : List UInt8} {k : ℕ} {i : ℤ} (h : Dropped s name k i s')
include h

lemma getElem?_inodes : s.curDir.inodes[k]? = some i := by
  rw [Dentry.getElem?_inodes (Dentry.find_some h.find).1, h.entry]

lemma mem_inodes : i ∈ s.curDir.inodes := List.mem_of_getElem? h.getElem?_inodes

lemma inodes_eq (hfits : s.curDir.Fits) : s'.curDir.inodes = s.curDir.inodes.eraseIdx k := by
  rw [h.curDir]
  exact Dentry.remove_inodes hfits h.find

lemma count_inodes (hfits : s.curDir.Fits) (j : ℤ) :
    s'.curDir.inodes.count j + (if j = i then 1 else 0) = s.curDir.inodes.count j := by
  rw [h.inodes_eq hfits]
  exact count_eraseIdx h.getElem?_inodes j

end Dropped

/-! ## Removing and linking -/

/-- The inode's blocks are given back, then the inode itself, then the entry goes. -/
lemma dropped_of_gave {s s₁ : FS} {name : List UInt8} {k : ℕ} {i : ℤ} {n : Inode} (hs : Store s)
    (hi : Allocated s i) (hfind : s.curDir.find name = some k)
    (hentry : (s.curDir.entry k).inode.toInt = i) (hlast : ((s.inode i).linkCount - 1).toInt ≤ 0)
    (hgave : Gave (writeInode s i n) (owned s.disk (s.inode i)) s₁) :
    Dropped s name k i { freeInode s₁ i with curDir := (freeInode s₁ i).curDir.remove name } := by
  -- whether or not the inode was in use, only its bit and the counter can change
  have hfree : freeInode s₁ i = { s₁ with
      superBlock := (freeInode s₁ i).superBlock
      inodeMap := (freeInode s₁ i).inodeMap } ∧
      (freeInode s₁ i).superBlock.freeBlockCount = s₁.superBlock.freeBlockCount := by
    unfold freeInode
    split_ifs <;> exact ⟨rfl, rfl⟩
  obtain ⟨hfree, hcount⟩ := hfree
  have hinodeMap : s₁.inodeMap = s.inodeMap := by
    rw [hgave.eq]
    rfl
  have hcounted : InodesCounted s₁ := by
    unfold InodesCounted
    rw [hgave.eq]
    exact hs.inodes
  refine { find := hfind, entry := hentry, last := hlast, curDir := ?_, curDirBlock := ?_,
           inodeMap := ?_, inode := ?_, used := ?_, disk := ?_, inodes := ?_, blocks := ?_ }
  · simp only
    rw [hfree, hgave.eq]
    rfl
  · simp only
    rw [hfree, hgave.eq]
    rfl
  · intro j
    simp only
    rw [← hinodeMap, bitAt_freeInode]
  · intro j hj
    simp only
    rw [hfree, hgave.eq]
    exact Function.update_of_ne hj ..
  · intro b
    simp only
    rw [hfree]
    exact hgave.used b
  · simp only
    rw [hfree, hgave.eq]
    rfl
  · have hcounted' := freeInode_counted hi.1 hi.2.1 hcounted
    unfold InodesCounted at hcounted' ⊢
    exact hcounted'
  · have hblocks := hgave.counted hs.blocks
    unfold BlocksCounted at hblocks ⊢
    simp only
    rw [hcount, hfree]
    exact hblocks

section Remove
variable {s : FS} {name : List UInt8} {k : ℕ} {i : ℤ} (hfind : s.curDir.find name = some k)
  (hentry : (s.curDir.entry k).inode.toInt = i) (hi : Allocated s i)
  (hfile : (s.inode i).type = .file)
include hfind hentry hi hfile

/-- `file_remove` of a name that is found. -/
lemma fileRemove_eq (junk : Junk) :
    fileRemove junk name s =
      (0, if ((s.inode i).linkCount - 1).toInt ≤ 0 then
          let n := { s.inode i with linkCount := (s.inode i).linkCount - 1 }
          let s := freeFile junk (writeInode s i n) i n
          { s with curDir := s.curDir.remove name }
        else unlinked s i name) := by
  have hsearch := searchCurDir_of_find hfind hentry
  have hne := hi.ne_neg_one
  have hnot : ¬ (s.inode i).type ≠ .file := not_not.mpr hfile
  unfold fileRemove readInode
  simp only [hsearch, hne, if_false, hnot]
  split_ifs <;> rfl

/-- The last link of a file goes, and the file with it. -/
lemma fileRemove_drop (hs : Store s) (hlast : ((s.inode i).linkCount - 1).toInt ≤ 0)
    (junk : Junk) : ∃ s', fileRemove junk name s = (0, s') ∧ Dropped s name k i s' := by
  rw [fileRemove_eq hfind hentry hi hfile, if_pos hlast]
  generalize hn : ({ s.inode i with linkCount := (s.inode i).linkCount - 1 } : Inode) = n
  have howned : fileBlocks s.disk n = owned s.disk (s.inode i) := by
    rw [owned_file hfile, ← hn]
    rfl
  obtain ⟨s₁, hgave, hfree⟩ := freeFile_gave (s := writeInode s i n) junk i n fun b hb => by
    have hb' : b ∈ fileBlocks s.disk n := hb
    obtain ⟨h0, hlt, -⟩ := hs.marked hi (howned ▸ hb')
    exact ⟨h0, hlt⟩
  refine ⟨_, rfl, ?_⟩
  simp only [hfree]
  exact dropped_of_gave hs hi hfind hentry hlast (howned ▸ hgave)

/-- Another link is left. -/
lemma fileRemove_unlink (hpos : 0 < ((s.inode i).linkCount - 1).toInt) (junk : Junk) :
    fileRemove junk name s = (0, unlinked s i name) := by
  rw [fileRemove_eq hfind hentry hi hfile, if_neg (by omega)]

end Remove

/-- Without a file of that name `file_remove` prints an error. -/
lemma fileRemove_printed {s : FS} (hs : Ready s) {name : List UInt8}
    (h : ∀ k, s.curDir.find name = some k →
      (s.inode (s.curDir.entry k).inode.toInt).type ≠ .file) (junk : Junk) :
    Printed s (fileRemove junk name s).2 := by
  unfold fileRemove readInode
  dsimp only
  rcases hs.search name with ⟨-, hsearch⟩ | ⟨k, hfind, hentry, hi⟩
  · rw [if_pos hsearch]
    exact Printed.printf s _
  · have htype := h k hfind
    rw [hentry] at htype
    rw [if_neg hi.ne_neg_one, if_pos htype]
    exact Printed.printf s _

lemma fileRemove_step {s : FS} (hs : Ready s) (junk : Junk) (name : List UInt8) :
    FileStep s (fileRemove junk name s).2 := by
  by_cases hfile : ∃ k, s.curDir.find name = some k ∧
      (s.inode (s.curDir.entry k).inode.toInt).type = .file
  · obtain ⟨k, hfind, hfile⟩ := hfile
    have hi := hs.entries _ (Dentry.mem_inodes.mpr ⟨k, (Dentry.find_some hfind).1, rfl⟩)
    by_cases hlast : ((s.inode (s.curDir.entry k).inode.toInt).linkCount - 1).toInt ≤ 0
    · obtain ⟨s', heq, hdrop⟩ := fileRemove_drop hfind rfl hi hfile hs.store hlast junk
      rw [heq]
      exact .drop hdrop hfile
    · have hpos := not_le.mp hlast
      rw [fileRemove_unlink hfind rfl hi hfile hpos]
      exact .unlink hfind rfl hfile hpos
  · exact .print (fileRemove_printed hs (fun k hfind htype => hfile ⟨k, hfind, htype⟩) junk)

/-- `hard_link` returns before it makes the link. -/
def LinkRefused (s : FS) (src : List UInt8) : Prop :=
  searchCurDir s src = -1 ∨ s.curDir.full = true

lemma hardLink_refused {s : FS} {src : List UInt8} (h : LinkRefused s src) (dest : List UInt8) :
    ∃ s', hardLink src dest s = (-1, s') ∧ Printed s s' := by
  unfold hardLink
  dsimp only
  by_cases hnone : searchCurDir s src = -1
  · rw [if_pos hnone]
    exact ⟨_, rfl, Printed.printf s _⟩
  · rw [if_neg hnone, if_pos (h.resolve_left hnone)]
    exact ⟨_, rfl, Printed.printf s _⟩

lemma hardLink_linked {s : FS} {src : List UInt8} (h : ¬ LinkRefused s src) (dest : List UInt8) :
    hardLink src dest s = (0, linked s (searchCurDir s src) dest) := by
  unfold LinkRefused at h
  rw [not_or] at h
  unfold hardLink
  dsimp only
  rw [if_neg h.1, if_neg h.2]
  rfl

lemma hardLink_step {s : FS} (hs : Ready s) (src dest : List UInt8) :
    FileStep s (hardLink src dest s).2 := by
  by_cases hrefused : LinkRefused s src
  · obtain ⟨s', heq, hprint⟩ := hardLink_refused hrefused dest
    rw [heq]
    exact .print hprint
  · rw [hardLink_linked hrefused]
    unfold LinkRefused at hrefused
    rw [not_or] at hrefused
    rcases hs.search src with ⟨-, hsearch⟩ | ⟨k, hfind, hentry, -⟩
    · exact absurd hsearch hrefused.1
    · rw [← hentry]
      exact .link (i := (s.curDir.entry k).inode) dest (Dentry.find_some hfind).1 rfl
        (hs.room hrefused.2)

end OsProjects.FileSys
