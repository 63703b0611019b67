import OsProjects.FileSys.Mount

/-!
# Consistency

The file commands keep a consistent file system consistent: what the bitmaps, the
counters, the inodes and the directory entries say about each other stays true.
-/

namespace OsProjects.FileSys
open Ownership

structure Consistent (s : FS) : Prop where
  store : Store s
  reserved : ∀ b, 0 ≤ b → b < firstDataBlock → bitAt s.blockMap b = true
  data : ∀ i, Allocated s i → ∀ b ∈ owned s.disk (s.inode i), firstDataBlock ≤ b
  noLeak : NoLeak (Allocated s) (fun i => owned s.disk (s.inode i))
    fun b => firstDataBlock ≤ b ∧ Marked s b
  current : ∃ c, IsDir s c ∧ (s.inode c).direct 0 = s.curDirBlock
  dirOk : ∀ d, IsDir s d → DirOk s d (dirAt s d)
  linkCount : ∀ i, IsFile s i → (s.inode i).linkCount.toInt = links s i

/-- What consistency says about the blocks. -/
structure BlocksOwned (s : FS) : Prop where
  store : Store s
  reserved : ∀ b, 0 ≤ b → b < firstDataBlock → bitAt s.blockMap b = true
  data : ∀ i, Allocated s i → ∀ b ∈ owned s.disk (s.inode i), firstDataBlock ≤ b
  noLeak : NoLeak (Allocated s) (fun i => owned s.disk (s.inode i))
    fun b => firstDataBlock ≤ b ∧ Marked s b

/-- Commands on a new file system start from a consistent state. -/
lemma Fresh.consistent {s : FS} (h : Fresh s) : Consistent s where
  store := h.store
  reserved := by
    intro b h0 hb
    exact (h.blockMap b).mpr ⟨h0, hb.le⟩
  data := by
    intro i hi b hb
    rw [(h.allocated i).mp hi, h.owned_root, List.mem_singleton] at hb
    exact hb.ge
  noLeak := by
    intro b hb
    refine ⟨0, (h.allocated 0).mpr rfl, ?_⟩
    obtain ⟨hge, hmarked⟩ := hb
    have hle := ((h.marked b).mp hmarked).2
    change b ∈ owned s.disk (s.inode 0)
    rw [h.owned_root, List.mem_singleton]
    omega
  current := ⟨0, h.isDir_root, h.current⟩
  dirOk := by
    intro d hd
    rw [(h.allocated d).mp hd.1, h.dirAt_root]
    exact h.dirOk_root
  linkCount := by
    intro i hi
    have htype := hi.2
    rw [(h.allocated i).mp hi.1, h.type] at htype
    cases htype

namespace Consistent
variable {s s' : FS}

lemma blocksOwned (h : Consistent s) : BlocksOwned s := ⟨h.store, h.reserved, h.data, h.noLeak⟩

/-- The parts of consistency that are left when the blocks are in order. -/
lemma step (h : Consistent s) {c : ℤ} (hc : IsDir s c)
    (hcur : (s.inode c).direct 0 = s.curDirBlock) (hsame : SameDirs s s') (hblocks : BlocksOwned s')
    (hentries : ∀ d, IsDir s d → d ≠ c → ∀ j ∈ (dirAt s d).inodes, Allocated s' j)
    (hcurDir : DirOk s' c s'.curDir)
    (hlinkCount : ∀ i, IsFile s' i → (s'.inode i).linkCount.toInt + s.curDir.inodes.count i =
      links s i + s'.curDir.inodes.count i) : Consistent s' where
  store := hblocks.store
  reserved := hblocks.reserved
  data := hblocks.data
  noLeak := hblocks.noLeak
  current := by
    refine ⟨c, (hsame.isDir c).mpr hc, ?_⟩
    rw [hsame.direct c hc, hsame.curDirBlock, hcur]
  dirOk := by
    intro d hd
    rw [hsame.isDir] at hd
    by_cases hdc : d = c
    · rw [hdc, hsame.current hc hcur]
      exact hcurDir
    · have hok := h.dirOk d hd
      have hat := hsame.dirAt_eq h.store hc hcur hd hdc
      rw [hat]
      exact { hok with entries := hentries d hd hdc }
  linkCount := by
    intro i hi
    have hlinks := hsame.links_eq h.store hc hcur i
    have hcount := hlinkCount i hi
    omega

lemma dirOk_current (h : Consistent s) {c : ℤ} (hc : IsDir s c)
    (hcur : (s.inode c).direct 0 = s.curDirBlock) : DirOk s c s.curDir := by
  rw [← dirAt_current hcur]
  exact h.dirOk c hc

lemma ready (h : Consistent s) : Ready s := by
  obtain ⟨c, hc, hcur⟩ := h.current
  have hok := h.dirOk_current hc hcur
  exact ⟨h.store, hok.fits, hok.entries⟩

/-- Each directory has at most 21 entries, and there are at most 512 directories. -/
lemma links_le (h : Consistent s) (i : ℤ) : links s i ≤ 512 * 21 := by
  have hcard : (dirs s).card ≤ 512 := by
    refine (Finset.card_filter_le _ _).trans ?_
    rw [Int.card_Ico]
    rfl
  have hle : links s i ≤ (dirs s).card * 21 := by
    apply references_le
    intro d hd
    rw [Dentry.length_inodes]
    exact (h.dirOk d (mem_dirs.mp hd)).fits.count_le
  exact hle.trans (Nat.mul_le_mul_right 21 hcard)

end Consistent

/-! ## The entries of the current directory -/

namespace DirOk
variable {s s' : FS} {c : ℤ} {d : Dentry} {name : List UInt8}

lemma count_pos' (h : DirOk s c d) : 0 < d.count := by
  have hpos := h.count_pos
  unfold Dentry.count
  omega

/-- One more entry. -/
lemma add (h : DirOk s c d) (hroom : d.count < 21) (i : Int32)
    (hentries : ∀ j ∈ d.inodes ++ [i.toInt], Allocated s' j) :
    DirOk s' c (d.add name i.toInt) := by
  have hcast := h.fits.count_cast
  have hpos := h.count_pos'
  have hnum := @Dentry.add_numEntry d name h.count_le i.toInt
  refine { count_pos := by omega, count_le := by omega, dot := ?_, self := ?_, entries := ?_ }
  · rw [Dentry.add_entry hroom _ (by omega), h.dot]
  · rw [Dentry.add_entry hroom _ (by omega), h.self]
  · rw [Dentry.add_inodes h.fits hroom]
    exact hentries

/-- One entry less, which is not the first. -/
lemma remove (h : DirOk s c d) {k : ℕ} (hfind : d.find name = some k) (hk : 0 < k)
    (hentries : ∀ j ∈ d.inodes.eraseIdx k, Allocated s' j) : DirOk s' c (d.remove name) := by
  have hcast := h.fits.count_cast
  have hlt := (Dentry.find_some hfind).1
  have hnum := Dentry.remove_numEntry h.fits hfind
  have hle := h.count_le
  refine { count_pos := by omega, count_le := by omega, dot := ?_, self := ?_, entries := ?_ }
  · rw [Dentry.remove_entry h.fits hfind hk, h.dot]
  · rw [Dentry.remove_entry h.fits hfind hk, h.self]
  · rw [Dentry.remove_inodes h.fits hfind]
    exact hentries

end DirOk

/-! ## The blocks -/

namespace BlocksOwned
variable {s s' : FS} {name : List UInt8}

lemma relink (h : BlocksOwned s) (hrelink : Relinked s s') : BlocksOwned s' where
  store := hrelink.store h.store
  reserved := by
    rw [hrelink.rest]
    exact h.reserved
  data := by
    intro i hi b hb
    rw [hrelink.owned_eq] at hb
    exact h.data i ((hrelink.allocated i).mp hi) b hb
  noLeak := by
    rw [hrelink.marked]
    exact h.noLeak.congr hrelink.allocated (fun i _ => hrelink.owned_eq i) fun b hb => hb

/-- A block that was free is not one of the reserved ones. -/
lemma le_of_free (h : BlocksOwned s) {b : ℤ} (h0 : 0 ≤ b) (hfree : bitAt s.blockMap b = false) :
    firstDataBlock ≤ b := by
  by_contra hlt
  rw [h.reserved b h0 (by omega)] at hfree
  cases hfree

lemma make (h : BlocksOwned s) {i : Int32} (hmade : Made s name i s')
    (hok : (s'.inode i.toInt).type = .file → FileOk (s'.inode i.toInt)) : BlocksOwned s' where
  store := hmade.store h.store hok
  reserved := fun b h0 hlt => (hmade.used b).mpr (Or.inl (h.reserved b h0 hlt))
  data := by
    intro j hj
    rcases (hmade.allocated j).mp hj with hj | rfl
    · rw [hmade.owned_eq h.store hj]
      exact h.data j hj
    · intro b hb
      obtain ⟨h0, -, hfree⟩ := hmade.free b hb
      exact h.le_of_free h0 hfree
  noLeak := by
    refine h.noLeak.take hmade.allocated (fun j hj => hmade.owned_eq h.store hj) fun b hb => ?_
    rcases (hmade.marked b).mp hb.2 with hmarked | hmem
    · exact Or.inl ⟨hb.1, hmarked⟩
    · exact Or.inr hmem

lemma drop (h : BlocksOwned s) {k : ℕ} {i : ℤ} (hdrop : Dropped s name k i s')
    (hi : Allocated s i) : BlocksOwned s' where
  store := hdrop.store h.store hi
  reserved := by
    intro b h0 hb
    refine (hdrop.used b).mpr ⟨h.reserved b h0 hb, fun hmem => ?_⟩
    have hdata := h.data i hi b hmem
    omega
  data := by
    intro j hj b hb
    rw [hdrop.owned_eq hj] at hb
    exact h.data j ((hdrop.allocated j).mp hj).1 b hb
  noLeak := by
    refine h.noLeak.release hdrop.allocated (fun j hj => hdrop.owned_eq hj) fun b hb => ?_
    obtain ⟨hmarked, hmem⟩ := (hdrop.marked b).mp hb.2
    exact ⟨⟨hb.1, hmarked⟩, hmem⟩

end BlocksOwned

/-! ## The steps -/

section Steps
variable {s s' : FS} {c : ℤ} {name : List UInt8}

lemma Consistent.relink (h : Consistent s) (hrelink : Relinked s s') {c : ℤ} (hc : IsDir s c)
    (hcur : (s.inode c).direct 0 = s.curDirBlock) (hcurDir : DirOk s c s'.curDir)
    (hlinkCount : ∀ i, IsFile s i → (s'.inode i).linkCount.toInt + s.curDir.inodes.count i =
      (s.inode i).linkCount.toInt + s'.curDir.inodes.count i) : Consistent s' := by
  refine h.step hc hcur hrelink.sameDirs (h.blocksOwned.relink hrelink) ?_ ?_ ?_
  · intro d hd _ j hj
    exact (hrelink.allocated j).mpr ((h.dirOk d hd).entries j hj)
  · exact { hcurDir with entries := fun j hj => (hrelink.allocated j).mpr (hcurDir.entries j hj) }
  · intro i hi
    have hi' : IsFile s i := ⟨(hrelink.allocated i).mp hi.1, by rw [← hrelink.type_eq, hi.2]⟩
    rw [hlinkCount i hi', h.linkCount i hi']

lemma Consistent.print (h : Consistent s) (hprint : Printed s s') : Consistent s' := by
  obtain ⟨c, hc, hcur⟩ := h.current
  have hinode : s'.inode = s.inode := by rw [hprint]
  have hcurDir : s'.curDir = s.curDir := by rw [hprint]
  have hrelink : Relinked s s' := ⟨by rw [hprint], fun j => by rw [hinode]⟩
  refine h.relink hrelink hc hcur ?_ fun i _ => ?_
  · rw [hcurDir]
    exact h.dirOk_current hc hcur
  · rw [hinode, hcurDir]

lemma Consistent.link (h : Consistent s) (dest : List UInt8) {k : ℕ} (hk : k < s.curDir.count)
    (hroom : s.curDir.count < 21) :
    Consistent (linked s (s.curDir.entry k).inode.toInt dest) := by
  obtain ⟨c, hc, hcur⟩ := h.current
  have hok := h.dirOk_current hc hcur
  generalize hi : (s.curDir.entry k).inode = i
  refine h.relink (linked_relinked s i.toInt dest) hc hcur ?_ fun j hj => ?_
  · refine hok.add hroom i fun j hj => ?_
    rcases List.mem_append.mp hj with hj | hj
    · exact hok.entries j hj
    · rw [List.mem_singleton.mp hj]
      exact hok.entries _ (Dentry.mem_inodes.mpr ⟨k, hk, by rw [hi]⟩)
  · apply linked_balance hok.fits hroom
    have hle := h.links_le j
    have hcount := h.linkCount j hj
    omega

/-- The entry that goes is not the one for the directory itself. -/
lemma Consistent.entry_pos (h : Consistent s) {i : ℤ} (hi : (s.inode i).type = .file) {k : ℕ}
    (hentry : (s.curDir.entry k).inode.toInt = i) : 0 < k := by
  obtain ⟨c, hc, hcur⟩ := h.current
  rcases Nat.eq_zero_or_pos k with rfl | hpos
  · rw [(h.dirOk_current hc hcur).self] at hentry
    rw [← hentry, hc.2] at hi
    cases hi
  · exact hpos

lemma Consistent.unlink (h : Consistent s) {i : ℤ} {k : ℕ} (hfind : s.curDir.find name = some k)
    (hentry : (s.curDir.entry k).inode.toInt = i) (hk : 0 < k) :
    Consistent (unlinked s i name) := by
  obtain ⟨c, hc, hcur⟩ := h.current
  have hok := h.dirOk_current hc hcur
  refine h.relink (unlinked_relinked s i name) hc hcur ?_ fun j hj => ?_
  · exact hok.remove hfind hk fun j hj => hok.entries j (List.mem_of_mem_eraseIdx hj)
  · apply unlinked_balance hok.fits hfind hentry
    have hcount := h.linkCount j hj
    omega

lemma Consistent.make (h : Consistent s) {i : Int32} (hmade : Made s name i s')
    (hfile : (s'.inode i.toInt).type = .file) (hfileOk : FileOk (s'.inode i.toInt)) :
    Consistent s' := by
  obtain ⟨c, hc, hcur⟩ := h.current
  have hok := h.dirOk_current hc hcur
  have hinodes := hmade.inodes_eq hok.fits
  have hold : ∀ d, IsDir s d → ∀ j ∈ (dirAt s d).inodes, Allocated s' j := fun d hd j hj =>
    (hmade.allocated j).mpr (Or.inl ((h.dirOk d hd).entries j hj))
  have hi : Allocated s' i.toInt := (hmade.allocated _).mpr (Or.inr rfl)
  refine h.step hc hcur (hmade.sameDirs h.store hfile) (h.blocksOwned.make hmade fun _ => hfileOk)
    ?_ ?_ ?_
  · exact fun d hd _ => hold d hd
  · rw [hmade.curDir]
    refine hok.add hmade.room i fun j hj => ?_
    rcases List.mem_append.mp hj with hj | hj
    · rw [← dirAt_current hcur] at hj
      exact hold c hc j hj
    · rwa [List.mem_singleton.mp hj]
  · intro j hj
    rw [hinodes, List.count_append, List.count_singleton]
    rcases (hmade.allocated j).mp hj.1 with hj' | hji
    · have hne : (i.toInt == j) = false :=
        beq_false_of_ne fun hij => hmade.not_allocated (hij ▸ hj')
      rw [hmade.inode_eq hj', hne, h.linkCount j ⟨hj', hmade.inode_eq hj' ▸ hj.2⟩,
        if_neg Bool.false_ne_true, Nat.add_zero]
    · -- nothing names an inode before it is allocated
      have hzero : links s j = 0 := by
        apply references_eq_zero
        intro d hd hmem
        exact hmade.not_allocated (hji ▸ (h.dirOk d (mem_dirs.mp hd)).entries j hmem)
      rw [hzero, hji, hmade.linkCount]
      simp only [beq_self_eq_true, if_true]
      push_cast
      omega

lemma Consistent.drop (h : Consistent s) {k : ℕ} {i : ℤ} (hdrop : Dropped s name k i s')
    (hfile : (s.inode i).type = .file) : Consistent s' := by
  obtain ⟨c, hc, hcur⟩ := h.current
  have hok := h.dirOk_current hc hcur
  have hi : IsFile s i := ⟨hok.entries i hdrop.mem_inodes, hfile⟩
  have herase := hdrop.count_inodes hok.fits
  have hsame := hdrop.sameDirs hfile
  -- no entry is left for the inode
  have hzero : links s' i = 0 := by
    have hcount := h.linkCount i hi
    have hle := h.links_le i
    have hlast := hdrop.last
    rw [CInt.toInt_sub_one (by omega)] at hlast
    have hlinks := hsame.links_eq h.store hc hcur i
    have hone := herase i
    rw [if_pos rfl] at hone
    omega
  have hentries : ∀ d, IsDir s d → ∀ j ∈ (dirAt s' d).inodes, Allocated s j → Allocated s' j := by
    intro d hd j hj hjs
    refine (hdrop.allocated j).mpr ⟨hjs, ?_⟩
    rintro rfl
    exact notMem_of_references_eq_zero hzero (mem_dirs.mpr ((hsame.isDir d).mpr hd)) hj
  refine h.step hc hcur hsame (h.blocksOwned.drop hdrop hi.1) ?_ ?_ ?_
  · intro d hd hdc j hj
    refine hentries d hd j ?_ ((h.dirOk d hd).entries j hj)
    rwa [hsame.dirAt_eq h.store hc hcur hd hdc]
  · rw [hdrop.curDir]
    refine hok.remove hdrop.find (h.entry_pos hfile hdrop.entry) fun j hj => ?_
    refine hentries c hc j ?_ (hok.entries j (List.mem_of_mem_eraseIdx hj))
    rw [hsame.current hc hcur, hdrop.inodes_eq hok.fits]
    exact hj
  · intro j hj
    have hne := ((hdrop.allocated j).mp hj.1).2
    have hj' : IsFile s j := ⟨((hdrop.allocated j).mp hj.1).1, hdrop.inode_eq hj.1 ▸ hj.2⟩
    have hcount := herase j
    rw [if_neg hne] at hcount
    rw [hdrop.inode_eq hj.1, h.linkCount j hj']
    omega

/-- One step of a file command. -/
lemma FileStep.consistent (hstep : FileStep s s') (h : Consistent s) : Consistent s' := by
  cases hstep with
  | print hprint => exact h.print hprint
  | make hmade hfile hok => exact h.make hmade hfile hok
  | link dest hk hi hroom => exact hi ▸ h.link dest hk hroom
  | unlink hfind hi hfile hpos => exact h.unlink hfind hi (h.entry_pos hfile hi)
  | drop hdrop hfile => exact h.drop hdrop hfile

end Steps

/-- A file command, successful or not, takes a consistent file system to a consistent one. -/
theorem file_commands_consistent {s : FS} (h : Consistent s) (junk : Junk) (line : Line)
    (hline : line.comm ∈ fileCommands) : Consistent (executeCommand junk line s).2 :=
  (executeCommand_step h.ready junk hline).consistent h

/-- The first file on a new disk. -/
theorem file_commands_consistent_create :
    Consistent (executeCommand Junk.zero
      ⟨str "create", Word.of "a", Word.of "700", 2⟩ fsMountNew).2 :=
  file_commands_consistent fsMountNew_fresh.consistent Junk.zero _ (by decide)

end OsProjects.FileSys
