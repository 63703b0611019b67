import OsProjects.Fsck.Lifetime
import OsProjects.Fsck.Rebuild

/-!
# Disks between sessions

A disk is mounted, used, unmounted, loses its bitmaps, is checked and is mounted again, in any
order and any number of times.  As long as a loss can be seen in the counters, the file
system is there again when the disk is mounted.
-/

namespace OsProjects.Fsck
open FileSys FirstFit
open Relation (ReflTransGen)

/-- The disk is mounted by the simulator, in a file, or in a file that has lost its bitmaps. -/
inductive Disk
  | mounted (s : FS)
  | resting (file : ℤ → Block)
  | damaged (file : ℤ → Block)

/-- What happens to a disk other than commands.  A loss of the bitmaps is one that the counters of
the superblock do not agree with. -/
inductive Idle : Disk → Disk → Prop
  | umount (s : FS) (junk : Junk) : Idle (.mounted s) (.resting (fsUmount junk s).disk)
  | mount {file : ℤ → Block} {s : FS} (h : fsMount file = some s) :
      Idle (.resting file) (.mounted s)
  | lose (file : ℤ → Block) (inodeMap blockMap : Block)
      (h : ∀ m, fsMount (withMaps file inodeMap blockMap) = some m → countersAgree m = false) :
      Idle (.resting file) (.damaged (withMaps file inodeMap blockMap))
  | check {file file' : ℤ → Block} {junk : Junk} {fuel : ℕ}
      (h : fsck junk fuel file = .ok file') : Idle (.resting file) (.resting file')
  | repair {file file' : ℤ → Block} {junk : Junk} {fuel : ℕ}
      (h : fsck junk fuel file = .ok file') : Idle (.damaged file) (.resting file')

inductive Step : Disk → Disk → Prop
  | command {s : FS} {l : Junk × Line} (h : Orderly s l) : Step (.mounted s) (.mounted (next s l))
  | idle {d d' : Disk} (h : Idle d d') : Step d d'

/-- From a new disk on. -/
def Reached (d : Disk) : Prop := ReflTransGen Step (.mounted fsMountNew) d

/-! ## The file system on the disk -/

/-- The file is an image of the file system `s`. -/
def Clean (s : FS) (file : ℤ → Block) : Prop :=
  ∃ m junk, Intact m ∧ Same s m ∧ file = image junk m

/-- Nothing is lost of the file system `s` but the bitmaps, and this can be seen. -/
def Damaged (s : FS) (file : ℤ → Block) : Prop :=
  ∃ m, Intact m ∧ Same s m ∧ fsMount file = some (loaded file) ∧ Holds m (loaded file) ∧
    countersAgree (loaded file) = false

/-- The disk keeps the file system `s`. -/
def Keeps (s : FS) : Disk → Prop
  | .mounted m => Intact m ∧ Same s m
  | .resting file => Clean s file
  | .damaged file => Damaged s file

section Keeps
variable {s m : FS} {file file' : ℤ → Block} {junk : Junk} {fuel : ℕ}

lemma same_self (h : Intact s) : Same s s where
  superBlock := rfl
  inode := fun _ _ _ => rfl
  file := fun _ _ _ _ => rfl
  dirAt := fun _ _ => rfl
  current := h.current
  inodeMap := fun _ _ _ => rfl
  blockMap := fun _ _ _ => rfl

lemma counters_of_intact (h : Intact s) : countersAgree s = true :=
  (countersAgree_iff s).mpr ⟨h.store.inodes, h.store.blocks⟩

/-- Only the inodes of the table are loaded. -/
lemma oneBlock_loaded (h : Intact m) (hinode : ∀ i : ℤ, 0 ≤ i → i < maxInode →
    (loaded file).inode i = m.inode i) (i : ℤ) : OneBlock ((loaded file).inode i) := by
  apply loaded_oneBlock
  intro i h0 hlt
  rw [hinode i h0 hlt]
  exact h.oneBlock i

lemma Clean.of_intact (h : Intact m) (hsame : Same s m) (junk : Junk) :
    Clean s (fsUmount junk m).disk := by
  rw [h.image_eq]
  exact ⟨m, junk, h, hsame, rfl⟩

lemma Clean.mount (h : Clean s file) :
    fsMount file = some (loaded file) ∧ Intact (loaded file) ∧ Same s (loaded file) := by
  obtain ⟨m, junk, hm, hsame, rfl⟩ := h
  have hloaded := hm.loaded_same junk
  exact ⟨hm.fsMount_of fun _ _ _ => rfl, hloaded.intact hm (oneBlock_loaded hm hloaded.inode),
    hsame.trans hloaded⟩

/-- A loss leaves the files and directories where they are. -/
lemma Clean.lose (h : Clean s file) (inodeMap blockMap : Block) :
    ∃ m, Intact m ∧ Same s m ∧ fsMount (withMaps file inodeMap blockMap) =
      some (loaded (withMaps file inodeMap blockMap)) ∧
      Holds m (loaded (withMaps file inodeMap blockMap)) := by
  obtain ⟨m, junk, hm, hsame, rfl⟩ := h
  have hrest : ∀ b, b ≠ 1 → b ≠ 2 →
      withMaps (image junk m) inodeMap blockMap b = image junk m b := by
    intro b h1 h2
    unfold withMaps
    rw [Function.update_of_ne h2, Function.update_of_ne h1]
  exact ⟨m, hm, hsame, hm.fsMount_of hrest, holds_loaded hm junk hrest⟩

/-- Nothing is done to an image that is in order. -/
lemma Clean.check (h : Clean s file) (hrun : fsck junk fuel file = .ok file') : Clean s file' := by
  obtain ⟨hmount, hintact, hsame⟩ := h.mount
  have hagree : correct junk fuel (loaded file) = .ok (loaded file) :=
    if_pos (counters_of_intact hintact)
  unfold fsck at hrun
  rw [hmount] at hrun
  dsimp only at hrun
  rw [hagree] at hrun
  cases hrun
  exact .of_intact hintact hsame junk

lemma Damaged.repair (h : Damaged s file) (hrun : fsck junk fuel file = .ok file') :
    Clean s file' := by
  obtain ⟨m, hm, hsame, hmount, hholds, hbad⟩ := h
  unfold fsck at hrun
  rw [hmount] at hrun
  dsimp only at hrun
  cases hcorrect : correct junk fuel (loaded file) with
  | error e =>
    rw [hcorrect] at hrun
    cases hrun
  | ok m' =>
    rw [hcorrect] at hrun
    cases hrun
    obtain ⟨hmaps, hexact⟩ := (hholds.treeImage hm).exact_of_correct hbad hcorrect
    have hsame' := hholds.same hm hmaps hexact
    refine .of_intact (hsame'.intact hm fun i => ?_) (hsame.trans hsame') junk
    rw [hmaps.inode]
    exact oneBlock_loaded hm hholds.inode i

lemma Damaged.fsck_ok (h : Damaged s file) (junk : Junk) :
    ∃ fuel file', fsck junk fuel file = .ok file' := by
  obtain ⟨m, hm, -, hmount, hholds, -⟩ := h
  obtain ⟨fuel, m', hrun⟩ := (hholds.treeImage hm).correct_ok junk
  refine ⟨fuel, (fsUmount junk m').disk, ?_⟩
  unfold fsck
  rw [hmount]
  dsimp only
  rw [hrun]

end Keeps

/-! ## Losses that are seen -/

/-- Bits have been cleared, or bits have been set, but not both. -/
def OneSided (used used' : ℤ → Bool) (n : ℕ) : Prop :=
  (∃ i : ℤ, 0 ≤ i ∧ i < n ∧ used i ≠ used' i) ∧
    ((∀ i : ℤ, 0 ≤ i → i < n → used' i = true → used i = true) ∨
      ∀ i : ℤ, 0 ≤ i → i < n → used i = true → used' i = true)

section OneSided
variable {used used' : ℤ → Bool} {n : ℕ}

lemma freeCount_lt {i : ℤ} (hle : ∀ i : ℤ, 0 ≤ i → i < n → used' i = true → used i = true)
    (h0 : 0 ≤ i) (hlt : i < n) (hne : used i ≠ used' i) :
    freeCount used n < freeCount used' n := by
  have hcleared : used i = true ∧ used' i = false := by
    have hi := hle i h0 hlt
    cases hused : used i with
    | true =>
      rw [hused] at hne
      exact ⟨rfl, Bool.eq_false_iff.mpr hne.symm⟩
    | false =>
      rw [hused] at hne hi
      exact absurd (hi (Bool.eq_true_of_not_eq_false hne.symm)) Bool.false_ne_true
  unfold freeCount
  apply Finset.card_lt_card
  apply (Finset.ssubset_iff_of_subset fun j hj => ?_).mpr
  · refine ⟨i, Finset.mem_filter.mpr ⟨Finset.mem_Ico.mpr ⟨h0, hlt⟩, hcleared.2⟩, fun hi => ?_⟩
    rw [Finset.mem_filter, hcleared.1] at hi
    exact absurd hi.2.symm Bool.false_ne_true
  · rw [Finset.mem_filter, Finset.mem_Ico] at hj ⊢
    refine ⟨hj.1, Bool.eq_false_iff.mpr fun h => ?_⟩
    exact Bool.false_ne_true (hj.2.symm.trans (hle j hj.1.1 hj.1.2 h))

/-- The number of free bits is another one. -/
lemma OneSided.freeCount_ne (h : OneSided used used' n) : freeCount used n ≠ freeCount used' n := by
  obtain ⟨⟨i, h0, hlt, hne⟩, hle | hle⟩ := h
  · exact (freeCount_lt hle h0 hlt hne).ne
  · exact (freeCount_lt hle h0 hlt hne.symm).ne'

end OneSided

/-- A loss on one side is seen in the counters. -/
lemma Clean.disagrees {s m : FS} {file : ℤ → Block} {inodeMap blockMap : Block} (h : Clean s file)
    (hs : Intact s) (hmount : fsMount (withMaps file inodeMap blockMap) = some m)
    (hloss : OneSided (bitAt s.inodeMap) (bitAt m.inodeMap) maxInode ∨
      OneSided (bitAt s.blockMap) (bitAt m.blockMap) maxBlock) : countersAgree m = false := by
  obtain ⟨m', -, hsame, hloaded, hholds⟩ := h.lose inodeMap blockMap
  have hsuper := hholds.superBlock.trans hsame.superBlock
  rw [hmount] at hloaded
  rw [← Option.some.inj hloaded] at hsuper
  have hinodes : s.superBlock.freeInodeCount.toInt = _ := hs.store.inodes
  have hblocks : s.superBlock.freeBlockCount.toInt = _ := hs.store.blocks
  rw [← Bool.not_eq_true, countersAgree_iff, InodesCounted, BlocksCounted, hsuper, hinodes, hblocks,
    Nat.cast_inj, Nat.cast_inj]
  rintro ⟨hi, hb⟩
  rcases hloss with hloss | hloss
  · exact hloss.freeCount_ne hi
  · exact hloss.freeCount_ne hb

/-! ## Runs -/

section Runs
variable {s : FS} {d d' : Disk}

lemma Keeps.idle (h : Keeps s d) (hstep : Idle d d') : Keeps s d' := by
  cases hstep with
  | umount m junk => exact .of_intact h.1 h.2 junk
  | mount hmount =>
    obtain ⟨hloaded, hintact, hsame⟩ := Clean.mount h
    rw [hloaded] at hmount
    cases hmount
    exact ⟨hintact, hsame⟩
  | lose file inodeMap blockMap hseen =>
    obtain ⟨m, hm, hsame, hmount, hholds⟩ := Clean.lose h inodeMap blockMap
    exact ⟨m, hm, hsame, hmount, hholds, hseen _ hmount⟩
  | check hrun => exact Clean.check h hrun
  | repair hrun => exact Damaged.repair h hrun

lemma Keeps.idle_run (h : Keeps s d) (hrun : ReflTransGen Idle d d') : Keeps s d' := by
  induction hrun with
  | refl => exact h
  | tail _ hstep ih => exact ih.idle hstep

/-- A disk always keeps a file system that is in order. -/
lemma Reached.keeps (h : Reached d) : ∃ s, Keeps s d := by
  induction h with
  | refl => exact ⟨fsMountNew, fsMountNew_intact, same_self fsMountNew_intact⟩
  | tail _ hstep ih =>
    obtain ⟨s, hs⟩ := ih
    cases hstep with
    | @command m l horderly =>
      have hintact := hs.1.next horderly
      exact ⟨next m l, hintact, same_self hintact⟩
    | idle hidle => exact ⟨s, hs.idle hidle⟩

lemma Reached.intact {m : FS} (h : Reached (.mounted m)) : Intact m := by
  obtain ⟨s, hs⟩ := h.keeps
  exact hs.1

end Runs

/-- Orderly commands are steps in the life of a disk. -/
lemma reached_runCommands {lines : List (Junk × Line)} {s : FS} (h : Reached (.mounted s))
    (horderly : Run.Each next Orderly lines s) : Reached (.mounted (runCommands lines s)) := by
  have hstep : ∀ (s : FS) l, Reached (.mounted s) → Orderly s l → Reached (.mounted (next s l)) :=
    fun _ _ hs hl => hs.tail (.command hl)
  exact Run.inv_of_each hstep h horderly

/-! ## A disk with empty bitmaps -/

lemma reached_nested : Reached (.mounted nested) := reached_runCommands .refl nestedLines_orderly

lemma clean_nested : Clean nested (fsUmount Junk.zero nested).disk :=
  .of_intact nested_intact (same_self nested_intact) Junk.zero

lemma fsMount_lost : fsMount (lostImage nested) = some lostMaps := by
  obtain ⟨m, -, -, hmount, -⟩ := clean_nested.lose (fun _ => 0) (fun _ => 0)
  exact hmount

lemma lost_oneSided : OneSided (bitAt nested.inodeMap) (bitAt lostMaps.inodeMap) maxInode := by
  unfold lostMaps
  rw [lost_inodeMap]
  refine ⟨⟨1, by decide, by decide, ?_⟩, Or.inl fun i _ _ hi => ?_⟩
  · rw [bitAt_zero, nested_inodes.1.1]
    decide
  · rw [bitAt_zero] at hi
    cases hi

/-- The disk is unmounted and loses its bitmaps. -/
lemma idle_lost : ReflTransGen Idle (.mounted nested) (.damaged (lostImage nested)) :=
  (ReflTransGen.single (.umount nested Junk.zero)).tail
    (.lose _ _ _ fun m hm => by
      have hm' : some m = some lostMaps := hm.symm.trans fsMount_lost
      rw [Option.some.inj hm']
      exact lostMaps_disagrees)

/-- Between two commands nothing changes, however often the disk is unmounted, damaged, checked and
mounted. -/
theorem idle_same {s s' : FS} (h : Reached (.mounted s))
    (hrun : ReflTransGen Idle (.mounted s) (.mounted s')) : Same s s' := by
  have hkeeps : Keeps s (.mounted s) := ⟨h.intact, same_self h.intact⟩
  exact (hkeeps.idle_run hrun).2

/-- Through a loss, a repair and a mount. -/
theorem idle_same_nested : ∃ fuel file s', fsck Junk.zero fuel (lostImage nested) = .ok file ∧
    fsMount file = some s' ∧ Same nested s' := by
  have hkeeps : Keeps nested (.mounted nested) := ⟨nested_intact, same_self nested_intact⟩
  have hdamaged : Damaged nested (lostImage nested) := hkeeps.idle_run idle_lost
  obtain ⟨fuel, file, hrun⟩ := hdamaged.fsck_ok Junk.zero
  obtain ⟨hmount, -, -⟩ := (hdamaged.repair hrun).mount
  exact ⟨fuel, file, loaded file, hrun, hmount,
    idle_same reached_nested ((idle_lost.tail (.repair hrun)).tail (.mount hmount))⟩

/-- When bits of one of the bitmaps have been cleared and none set, or the other way round, `fsck`
ends with the file system that was unmounted. -/
theorem fsck_restores {s m : FS} (h : Reached (.mounted s)) (junk junk' : Junk)
    {inodeMap blockMap : Block}
    (hmount : fsMount (withMaps (fsUmount junk s).disk inodeMap blockMap) = some m)
    (hloss : OneSided (bitAt s.inodeMap) (bitAt m.inodeMap) maxInode ∨
      OneSided (bitAt s.blockMap) (bitAt m.blockMap) maxBlock) :
    ∃ fuel file s', fsck junk' fuel (withMaps (fsUmount junk s).disk inodeMap blockMap) = .ok file ∧
      fsMount file = some s' ∧ Same s s' := by
  have hclean : Clean s (fsUmount junk s).disk := .of_intact h.intact (same_self h.intact) junk
  have hbad := hclean.disagrees h.intact hmount hloss
  obtain ⟨m', hm, hsame, hloaded, hholds⟩ := hclean.lose inodeMap blockMap
  have hm' : m = loaded (withMaps (fsUmount junk s).disk inodeMap blockMap) := by
    rw [hmount] at hloaded
    exact Option.some.inj hloaded
  rw [hm'] at hbad
  have hdamaged : Damaged s (withMaps (fsUmount junk s).disk inodeMap blockMap) :=
    ⟨m', hm, hsame, hloaded, hholds, hbad⟩
  obtain ⟨fuel, file, hrun⟩ := hdamaged.fsck_ok junk'
  obtain ⟨hfile, -, hrestored⟩ := (hdamaged.repair hrun).mount
  exact ⟨fuel, file, loaded file, hrun, hfile, hrestored⟩

theorem fsck_restores_nested : ∃ fuel file s', fsck Junk.zero fuel (lostImage nested) = .ok file ∧
    fsMount file = some s' ∧ Same nested s' :=
  fsck_restores reached_nested Junk.zero Junk.zero fsMount_lost (Or.inl lost_oneSided)

end OsProjects.Fsck
