import OsProjects.FileSys.Consistent
import OsProjects.FileSys.RemoveDir

/-!
# Making and removing again

What a command takes, the removal of the name gives back: the free inode and the
free blocks are again those there were.
-/

namespace OsProjects.FileSys
open FirstFit

/-- The allocation, the entries of the current directory and the link counts are as they were. -/
structure Restored (s s' : FS) : Prop where
  inodeMap : s'.inodeMap = s.inodeMap
  blockMap : s'.blockMap = s.blockMap
  freeInodeCount : s'.superBlock.freeInodeCount = s.superBlock.freeInodeCount
  freeBlockCount : s'.superBlock.freeBlockCount = s.superBlock.freeBlockCount
  numEntry : s'.curDir.numEntry = s.curDir.numEntry
  entries : ∀ k < s.curDir.count, s'.curDir.entry k = s.curDir.entry k
  linkCount : ∀ i, Allocated s i → (s'.inode i).linkCount = (s.inode i).linkCount

/-- The number of blocks of a file of that size. -/
def blocksNeeded (size : ℤ) : ℤ := (size + 511) / 512 + if size > 7680 then 1 else 0

section Entry
variable {d : Dentry} {name : List UInt8} (hfits : d.Fits) (hroom : d.count < 21)
  (hfind : d.find name = none) (hne : 0 ∉ name) (hlength : name.length < 20) (z : ℤ)
include hfits hroom hfind hne hlength

/-- The entry that was added is the one that is removed. -/
lemma remove_add :
    ((d.add name z).remove name).numEntry = d.numEntry ∧
      ∀ k < d.count, ((d.add name z).remove name).entry k = d.entry k := by
  have hadded := Dentry.find_add hfits hroom hfind hne hlength z
  have hfits' := @Dentry.add_fits d name hfits hroom z
  constructor
  · apply Int32.toInt_inj.mp
    rw [Dentry.remove_numEntry hfits' hadded, Dentry.add_numEntry hfits.2]
    omega
  · intro k hk
    rw [Dentry.remove_entry hfits' hadded hk, Dentry.add_entry hroom z (by omega)]

end Entry

/-- The counters follow from the bitmaps. -/
lemma freeCounts_eq {s s' : FS} (hi : InodesCounted s) (hb : BlocksCounted s)
    (hi' : InodesCounted s') (hb' : BlocksCounted s') (hinodes : s'.inodeMap = s.inodeMap)
    (hblocks : s'.blockMap = s.blockMap) :
    s'.superBlock.freeInodeCount = s.superBlock.freeInodeCount ∧
      s'.superBlock.freeBlockCount = s.superBlock.freeBlockCount := by
  unfold InodesCounted at hi hi'
  unfold BlocksCounted at hb hb'
  constructor
  · apply Int32.toInt_inj.mp
    rw [hi', hinodes, hi]
  · apply Int32.toInt_inj.mp
    rw [hb', hblocks, hb]

/-- An inode is taken with its blocks, and given back. -/
lemma restored_of_dropped {s s₁ s₂ : FS} {name : Word} {i : Int32} {k : ℕ} (hs : Store s)
    (hfits : s.curDir.Fits) (hfind : s.curDir.find name.text = none) (hmade : Made s name.text i s₁)
    (hdrop : Dropped s₁ name.text k i.toInt s₂) : Restored s s₂ := by
  have hlength := name.length_le
  have hinodeMap : s₂.inodeMap = s.inodeMap := by
    apply eq_of_bitAt
    intro j
    rw [Bool.eq_iff_iff, hdrop.inodeMap, hmade.inodeMap, Function.update_apply]
    have hfresh := hmade.fresh
    by_cases hj : j = i.toInt
    · simp [hj, hfresh]
    · simp [hj]
  have hblockMap : s₂.blockMap = s.blockMap := by
    apply eq_of_bitAt
    intro b
    have hfree := hmade.free b
    rw [Bool.eq_iff_iff, hdrop.used, hmade.used]
    by_cases hb : b ∈ owned s₁.disk (s₁.inode i.toInt)
    · simp [hb, (hfree hb).2.2]
    · simp [hb]
  obtain ⟨hcountI, hcountB⟩ := freeCounts_eq hs.inodes hs.blocks hdrop.inodes hdrop.blocks hinodeMap
    hblockMap
  obtain ⟨hnum, hentries⟩ := remove_add hfits hmade.room hfind name.ne_zero (by omega) i.toInt
  rw [← hmade.curDir, ← hdrop.curDir] at hnum hentries
  refine ⟨hinodeMap, hblockMap, hcountI, hcountB, hnum, hentries, fun j hj => ?_⟩
  have hji : j ≠ i.toInt := fun h => hmade.not_allocated (h ▸ hj)
  rw [hdrop.inode j hji, hmade.inode j hji]

/-- The entry for the new inode is the one that the name finds. -/
lemma Made.find_eq {s s₁ : FS} {name : Word} {i : Int32} (h : Made s name.text i s₁)
    (hfits : s.curDir.Fits) (hfind : s.curDir.find name.text = none) :
    s₁.curDir.find name.text = some s.curDir.count ∧
      (s₁.curDir.entry s.curDir.count).inode.toInt = i.toInt := by
  have hlength := name.length_le
  rw [h.curDir, Dentry.add_entry_last h.room, Int32.ofInt_toInt]
  exact ⟨Dentry.find_add hfits h.room hfind name.ne_zero (by omega) _, rfl⟩

lemma Made.last {s s₁ : FS} {name : List UInt8} {i : Int32} (h : Made s name i s₁) :
    ((s₁.inode i.toInt).linkCount - 1).toInt ≤ 0 := by
  rw [h.linkCount]
  decide

/-- The blocks that were taken are those the size asks for. -/
lemma Made.freeBlockCount {s s₁ : FS} {name : List UInt8} {i : Int32} (h : Made s name i s₁)
    (hs : BlocksCounted s) (hfile : (s₁.inode i.toInt).type = .file)
    (hok : FileOk (s₁.inode i.toInt)) :
    s₁.superBlock.freeBlockCount.toInt =
      s.superBlock.freeBlockCount.toInt - blocksNeeded (s₁.inode i.toInt).size.toInt := by
  have htake := freeCount_takeAll h.nodup h.free h.used
  have hblocks := h.blocks
  have hcast := hok.blocks_cast
  have hlarge := hok.large_iff
  unfold BlocksCounted at hs hblocks
  rw [owned_file hfile, fileBlocks, List.length_append, List.length_map, List.length_range] at htake
  rw [hblocks, hs, ← htake]
  unfold blocksNeeded
  by_cases hn : (s₁.inode i.toInt).blocks > 15
  · rw [if_pos hn, List.length_cons, List.length_map, List.length_range, if_pos (hlarge.mpr hn)]
    omega
  · rw [if_neg hn, List.length_nil, if_neg fun h => hn (hlarge.mp h)]
    omega

section Pairs
variable {s : FS} {name : Word}

/-- `rm` after a file was made. -/
lemma remove_made {s₁ : FS} {i : Int32} (hs : Store s) (hfits : s.curDir.Fits)
    (hfind : s.curDir.find name.text = none) (hmade : Made s name.text i s₁)
    (hfile : (s₁.inode i.toInt).type = .file) (hok : FileOk (s₁.inode i.toInt)) (junk : Junk) :
    ∃ s₂, fileRemove junk name.text s₁ = (0, s₂) ∧ Restored s s₂ := by
  obtain ⟨hfind₁, hentry₁⟩ := hmade.find_eq hfits hfind
  have halloc := (hmade.allocated i.toInt).mpr (Or.inr rfl)
  obtain ⟨s₂, heq, hdrop⟩ := fileRemove_drop hfind₁ hentry₁ halloc hfile
    (hmade.store hs fun _ => hok) hmade.last junk
  exact ⟨s₂, heq, restored_of_dropped hs hfits hfind hmade hdrop⟩

/-- `rmdir` after a directory was made. -/
lemma removeDir_made {s₁ : FS} {i : Int32} {c b : ℤ} (hs : Store s) (hfits : s.curDir.Fits)
    (hfind : s.curDir.find name.text = none) (hdots : ¬ IsDots name.text)
    (hmade : Made s name.text i s₁) (hdir : DirMade s name.text c i b s₁) (junk : Junk) :
    ∃ s₂, dirRemove junk name.text s₁ = (0, s₂) ∧ Restored s s₂ := by
  obtain ⟨hfind₁, hentry₁⟩ := hmade.find_eq hfits hfind
  have hi : IsDir s₁ i.toInt := ⟨(hmade.allocated i.toInt).mpr (Or.inr rfl), hdir.type⟩
  have hstore : Store s₁ := hmade.store hs fun hfile => by
    rw [hdir.type] at hfile
    cases hfile
  have hempty : LooksEmpty s₁ i.toInt := by
    unfold LooksEmpty
    rw [hdir.direct, hdir.numEntry]
  obtain ⟨s₂, heq, hdrop⟩ := dirRemove_drop hfind₁ hentry₁ hi (hstore.marked hi.1 hi.block_mem)
    hdots hstore hempty hmade.last junk
  exact ⟨s₂, heq, restored_of_dropped hs hfits hfind hmade hdrop⟩

/-- `rm` after a link was made to a file that has one already. -/
lemma remove_linked {i : Int32} (hfits : s.curDir.Fits) (hroom : s.curDir.count < 21)
    (hfind : s.curDir.find name.text = none) (hi : IsFile s i.toInt)
    (hlink : 1 ≤ (s.inode i.toInt).linkCount.toInt) (junk : Junk) :
    ∃ s₂, fileRemove junk name.text (linked s i.toInt name.text) = (0, s₂) ∧ Restored s s₂ := by
  have hlength := name.length_le
  have hrelink := linked_relinked s i.toInt name.text
  have hcurDir : (linked s i.toInt name.text).curDir = s.curDir.add name.text i.toInt := rfl
  have hfind₁ : (linked s i.toInt name.text).curDir.find name.text = some s.curDir.count :=
    Dentry.find_add hfits hroom hfind name.ne_zero (by omega) _
  have hentry₁ :
      ((linked s i.toInt name.text).curDir.entry s.curDir.count).inode.toInt = i.toInt := by
    rw [hcurDir, Dentry.add_entry_last hroom, Int32.ofInt_toInt]
  have hlinkCount : ((linked s i.toInt name.text).inode i.toInt).linkCount - 1 =
      (s.inode i.toInt).linkCount := by
    rw [linked_linkCount, if_pos rfl]
    exact Int32.add_sub_cancel ..
  have heq := fileRemove_unlink hfind₁ hentry₁ ((hrelink.allocated _).mpr hi.1)
    ((hrelink.type_eq _).trans hi.2) (by rw [hlinkCount]; omega) junk
  refine ⟨_, heq, rfl, rfl, rfl, rfl, ?_, ?_, fun j _ => ?_⟩
  · exact (remove_add hfits hroom hfind name.ne_zero (by omega) i.toInt).1
  · exact (remove_add hfits hroom hfind name.ne_zero (by omega) i.toInt).2
  · rw [unlinked_linkCount]
    by_cases hj : j = i.toInt
    · rw [if_pos hj, hlinkCount, hj]
    · rw [if_neg hj, linked_linkCount, if_neg hj]

end Pairs

lemma Consistent.anchored {s : FS} (h : Consistent s) {c : ℤ} (hc : IsDir s c)
    (hcur : (s.inode c).direct 0 = s.curDirBlock) : Anchored s c := by
  have hok := h.dirOk_current hc hcur
  exact { inodes := h.store.inodes, blocks := h.store.blocks, reserved := h.reserved, isDir := hc,
          count_pos := hok.count_pos, count_le := hok.count_le, dot := hok.dot, self := hok.self }

/-- A file in the current directory has a link. -/
lemma Consistent.one_le_linkCount {s : FS} (h : Consistent s) {i : ℤ} (hi : IsFile s i)
    (hmem : i ∈ s.curDir.inodes) : 1 ≤ (s.inode i).linkCount.toInt := by
  obtain ⟨c, hc, hcur⟩ := h.current
  have hcount := List.count_pos_iff.mpr hmem
  have hle : (dirAt s c).inodes.count i ≤ links s i := by
    unfold links
    exact @Ownership.count_le_references _ _ _ (fun d => (dirAt s d).inodes) _ (mem_dirs.mpr hc) i
  rw [dirAt_current hcur] at hle
  rw [h.linkCount i hi]
  omega

section Commands
variable {s s₁ : FS} {name : Word} (h : Consistent s) (hnew : s.curDir.find name.text = none)
include h hnew

lemma create_remove {junk : Junk} {size : Int32}
    (hret : fileCreate junk name.text size s = (0, s₁)) :
    s₁.superBlock.freeBlockCount.toInt =
        s.superBlock.freeBlockCount.toInt - blocksNeeded size.toInt ∧
      ∀ junk', ∃ s₂, fileRemove junk' name.text s₁ = (0, s₂) ∧ Restored s s₂ := by
  rcases fileCreate_spec h.ready junk name.text size with
    ⟨s', heq, -⟩ | ⟨i, s', heq, hmade, -, hfile, hok, hsize, -⟩
  · rw [heq] at hret
    cases hret
  · rw [heq] at hret
    obtain rfl : s' = s₁ := congrArg Prod.snd hret
    refine ⟨?_, remove_made h.store h.ready.fits hnew hmade hfile hok⟩
    rw [hmade.freeBlockCount h.store.blocks hfile hok, hsize]

lemma copy_remove {junk : Junk} {src : List UInt8}
    (hret : fileCopy junk src name.text s = (0, s₁)) :
    s₁.superBlock.freeBlockCount.toInt = s.superBlock.freeBlockCount.toInt -
        blocksNeeded (s.inode (searchCurDir s src)).size.toInt ∧
      ∀ junk', ∃ s₂, fileRemove junk' name.text s₁ = (0, s₂) ∧ Restored s s₂ := by
  rcases fileCopy_spec h.ready junk src name.text with
    ⟨s', heq, -⟩ | ⟨i, s', heq, hmade, -, -, hfile, hok, hsize, -⟩
  · rw [heq] at hret
    cases hret
  · rw [heq] at hret
    obtain rfl : s' = s₁ := congrArg Prod.snd hret
    refine ⟨?_, remove_made h.store h.ready.fits hnew hmade hfile hok⟩
    rw [hmade.freeBlockCount h.store.blocks hfile hok, hsize]

lemma link_remove {src : List UInt8} (hret : hardLink src name.text s = (0, s₁))
    (hfile : (s.inode (searchCurDir s src)).type = .file) (junk : Junk) :
    ∃ s₂, fileRemove junk name.text s₁ = (0, s₂) ∧ Restored s s₂ := by
  by_cases hrefused : LinkRefused s src
  · obtain ⟨s', heq, -⟩ := hardLink_refused hrefused name.text
    rw [heq] at hret
    cases hret
  · rw [hardLink_linked hrefused] at hret
    obtain rfl : linked s (searchCurDir s src) name.text = s₁ := congrArg Prod.snd hret
    unfold LinkRefused at hrefused
    rw [not_or] at hrefused
    rcases h.ready.search src with ⟨-, hsearch⟩ | ⟨k, hfind, hentry, hi⟩
    · exact absurd hsearch hrefused.1
    · have hmem : searchCurDir s src ∈ s.curDir.inodes :=
        Dentry.mem_inodes.mpr ⟨k, (Dentry.find_some hfind).1, hentry⟩
      have hlink := h.one_le_linkCount ⟨hi, hfile⟩ hmem
      rw [← hentry] at hi hfile hlink ⊢
      exact remove_linked h.ready.fits (h.ready.room hrefused.2) hnew ⟨hi, hfile⟩ hlink junk

lemma makeDir_removeDir {junk : Junk} (hret : dirMake junk name.text s = (0, s₁))
    (hfree : 0 < s.superBlock.freeBlockCount.toInt) (junk' : Junk) :
    ∃ s₂, dirRemove junk' name.text s₁ = (0, s₂) ∧ Restored s s₂ := by
  obtain ⟨c, hc, hcur⟩ := h.current
  have hlength := name.length_le
  have hnot : ¬ Refused s name.text := by
    intro hrefused
    obtain ⟨s', heq, -⟩ := dirMake_refused hrefused junk
    rw [heq] at hret
    cases hret
  have hdots : ¬ IsDots name.text := by
    unfold Refused at hnot
    unfold IsDots
    tauto
  obtain ⟨i, b, s', heq, hmade, hdir⟩ :=
    dirMake_made (h.anchored hc hcur) name.ne_zero (by omega) hnot hfree junk
  rw [heq] at hret
  obtain rfl : s' = s₁ := congrArg Prod.snd hret
  exact removeDir_made h.store h.ready.fits hnew hdots hmade hdir junk'

end Commands

/-- A name that is new is made and removed again: by `create`, `cp`, `ln` of a file and `rm`, or by
`mkdir` and `rmdir`.  In between a file takes the blocks its size asks for. -/
theorem make_remove_restores {s : FS} (h : Consistent s) {name : Word}
    (hnew : s.curDir.find name.text = none) :
    (∀ junk size s₁, fileCreate junk name.text size s = (0, s₁) →
      s₁.superBlock.freeBlockCount.toInt =
        s.superBlock.freeBlockCount.toInt - blocksNeeded size.toInt ∧
      ∀ junk', ∃ s₂, fileRemove junk' name.text s₁ = (0, s₂) ∧ Restored s s₂) ∧
    (∀ junk src s₁, fileCopy junk src name.text s = (0, s₁) →
      s₁.superBlock.freeBlockCount.toInt = s.superBlock.freeBlockCount.toInt -
        blocksNeeded (s.inode (searchCurDir s src)).size.toInt ∧
      ∀ junk', ∃ s₂, fileRemove junk' name.text s₁ = (0, s₂) ∧ Restored s s₂) ∧
    (∀ src s₁, hardLink src name.text s = (0, s₁) →
      (s.inode (searchCurDir s src)).type = .file →
      ∀ junk', ∃ s₂, fileRemove junk' name.text s₁ = (0, s₂) ∧ Restored s s₂) ∧
    ∀ junk s₁, dirMake junk name.text s = (0, s₁) → 0 < s.superBlock.freeBlockCount.toInt →
      ∀ junk', ∃ s₂, dirRemove junk' name.text s₁ = (0, s₂) ∧ Restored s s₂ := by
  refine ⟨fun junk size s₁ hret => ?_, fun junk src s₁ hret => ?_, fun src s₁ hret hfile => ?_,
    fun junk s₁ hret hfree => ?_⟩
  · exact create_remove h hnew hret
  · exact copy_remove h hnew hret
  · exact link_remove h hnew hret hfile
  · exact makeDir_removeDir h hnew hret hfree

/-- A directory is made on a new disk and removed again. -/
theorem make_remove_restores_first :
    ∃ s₂, dirRemove Junk.zero (str "d") (dirMake Junk.zero (str "d") mounted).2 = (0, s₂) ∧
      Restored mounted s₂ := by
  have hfresh : Fresh mounted := fsMountNew_eq ▸ fsMountNew_fresh
  have hnew : mounted.curDir.find (str "d") = none := by decide
  have hret : (dirMake Junk.zero (str "d") mounted).1 = 0 := by decide +kernel
  have hpair := @make_remove_restores mounted hfresh.consistent (Word.of "d") hnew
  exact hpair.2.2.2 Junk.zero _ (eq_of_fst hret) (by decide) Junk.zero

end OsProjects.FileSys
