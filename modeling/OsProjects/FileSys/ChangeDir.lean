import OsProjects.FileSys.Mount
import OsProjects.FileSys.Dispatch

/-!
# Changing the directory

The current directory is a copy of a disk block that is written back by `cd`.
`written` is the disk as it is once the copy is written back.  Whatever `cd` does,
it leaves that as it is, so that no directory loses an entry on the way.
-/

namespace OsProjects.FileSys

/-- The disk with the current directory written back. -/
def written (s : FS) (b : ℤ) : Block := if b = s.curDirBlock then s.curDir.toBlock else s.disk b

/-- The current directory changes, and a block that is written holds what it would have held when
written back. -/
structure Moved (s s' : FS) : Prop where
  eq : s' = { s with
    disk := s'.disk
    curDir := s'.curDir
    curDirBlock := s'.curDirBlock
    stdout := s'.stdout }
  disk : ∀ b, s'.disk b = s.disk b ∨ 0 ≤ b ∧ b < maxBlock ∧ s'.disk b = written s b
  written : ∀ b : ℤ, 0 ≤ b → b < maxBlock → written s' b = written s b

lemma liveDir_eq (s : FS) (b : ℤ) : liveDir s b = Dentry.ofBlock (written s b) := by
  unfold liveDir written
  split_ifs
  · exact (Dentry.ofBlock_toBlock _).symm
  · rfl

lemma Printed.moved {s s' : FS} (h : Printed s s') : Moved s s' := by
  have hdisk : s'.disk = s.disk := by rw [h]
  refine { eq := ?_, disk := fun b => Or.inl (by rw [hdisk]), written := fun b _ _ => ?_ }
  · have hcurDir : s'.curDir = s.curDir := by rw [h]
    have hblock : s'.curDirBlock = s.curDirBlock := by rw [h]
    rw [hdisk, hcurDir, hblock]
    exact h
  · unfold FileSys.written
    rw [h]

namespace Moved
variable {s s' s'' : FS}

lemma trans (h : Moved s s') (h' : Moved s' s'') : Moved s s'' where
  eq := by
    have heq := h'.eq
    rw [h.eq] at heq
    exact heq
  disk := by
    intro b
    rcases h'.disk b with hsame | ⟨h0, hlt, hwritten⟩
    · rw [hsame]
      exact h.disk b
    · exact Or.inr ⟨h0, hlt, hwritten.trans (h.written b h0 hlt)⟩
  written := fun b h0 hlt => (h'.written b h0 hlt).trans (h.written b h0 hlt)

section Same
variable (h : Moved s s')
include h

lemma inode_eq : s'.inode = s.inode := by rw [h.eq]

lemma superBlock_eq : s'.superBlock = s.superBlock := by rw [h.eq]

lemma inodeMap_eq : s'.inodeMap = s.inodeMap := by rw [h.eq]

lemma blockMap_eq : s'.blockMap = s.blockMap := by rw [h.eq]

lemma isDir (d : ℤ) : IsDir s' d ↔ IsDir s d := by
  unfold IsDir Allocated
  rw [h.inode_eq, h.inodeMap_eq]

lemma marked (b : ℤ) : Marked s' b ↔ Marked s b := by
  unfold Marked
  rw [h.blockMap_eq]

lemma dirAt_eq {d : ℤ} (hd : Marked s ((s.inode d).direct 0)) : dirAt s' d = dirAt s d := by
  unfold dirAt
  rw [liveDir_eq, liveDir_eq, h.inode_eq, h.written _ hd.1 hd.2.1]

/-- Blocks other than that of the directory that is left are not written, or with what they hold. -/
lemma disk_eq {b : ℤ} (hb : b ≠ s.curDirBlock) : s'.disk b = s.disk b := by
  rcases h.disk b with hsame | ⟨-, -, hwritten⟩
  · exact hsame
  · rw [hwritten, FileSys.written, if_neg hb]

end Same

end Moved

/-! ## `cd` -/

/-- The directory is saved and another block is loaded. -/
def moveTo (s : FS) (b : ℤ) : FS :=
  let s := writeDiskBlock s s.curDirBlock s.curDir.toBlock
  let s := { s with curDirBlock := b }
  let (s, dir) := readDiskBlock s s.curDirBlock s.curDir.toBlock
  { s with curDir := Dentry.ofBlock dir }

/-- After the directory is saved, its block is up to date. -/
lemma writeDiskBlock_curDir (s : FS) :
    Moved s (writeDiskBlock s s.curDirBlock s.curDir.toBlock) ∧
      ∀ b : ℤ, 0 ≤ b → b < maxBlock →
        (writeDiskBlock s s.curDirBlock s.curDir.toBlock).disk b = written s b := by
  by_cases hrange : 0 ≤ s.curDirBlock ∧ s.curDirBlock < maxBlock
  · rw [writeDiskBlock_eq hrange.1 hrange.2]
    have hdisk : ∀ b, Function.update s.disk s.curDirBlock s.curDir.toBlock b = written s b :=
      fun b => Function.update_apply ..
    refine ⟨{ eq := rfl, disk := fun b => ?_, written := fun b _ _ => ?_ }, fun b _ _ => hdisk b⟩
    · by_cases hb : b = s.curDirBlock
      · rw [← hb] at hrange
        exact Or.inr ⟨hrange.1, hrange.2, hdisk b⟩
      · exact Or.inl (Function.update_of_ne hb ..)
    · unfold written
      dsimp only
      split_ifs with hb
      · rfl
      · exact Function.update_of_ne hb ..
  · have hprint : writeDiskBlock s s.curDirBlock s.curDir.toBlock =
        printf s (str "disk_write error\n") := if_pos (by omega)
    rw [hprint]
    refine ⟨(Printed.printf s _).moved, fun b h0 hlt => ?_⟩
    rw [written, if_neg (by omega)]
    rfl

lemma moveTo_moved (s : FS) (b : ℤ) : Moved s (moveTo s b) := by
  obtain ⟨hsave, hdisk⟩ := writeDiskBlock_curDir s
  unfold moveTo
  generalize writeDiskBlock s s.curDirBlock s.curDir.toBlock = s₁ at hsave hdisk
  have hload : ∀ s₂ : FS, ∀ dir : Dentry, Printed s₁ s₂ →
      (∀ c : ℤ, 0 ≤ c → c < maxBlock → c = b → dir.toBlock = s₁.disk c) →
        Moved s { s₂ with curDirBlock := b, curDir := dir } := by
    intro s₂ dir hprint hdir
    refine { eq := ?_, disk := fun c => ?_, written := fun c h0 hlt => ?_ }
    · have heq := hsave.eq
      unfold Printed at hprint
      rw [heq] at hprint
      rw [hprint]
    · have hdisk₂ : s₂.disk = s₁.disk := by rw [hprint]
      dsimp only
      rw [hdisk₂]
      exact hsave.disk c
    · have hdisk₂ : s₂.disk = s₁.disk := by rw [hprint]
      rw [← hdisk c h0 hlt, written]
      dsimp only
      rw [hdisk₂]
      split_ifs with hc
      · exact hdir c h0 hlt hc
      · rfl
  by_cases hrange : 0 ≤ b ∧ b < maxBlock
  · dsimp only
    rw [readDiskBlock_eq hrange.1 hrange.2]
    refine hload s₁ _ (Printed.refl s₁) fun c _ _ hc => ?_
    rw [Dentry.toBlock_ofBlock, hc]
  · dsimp only
    rw [readDiskBlock, if_pos (by omega)]
    refine hload (printf s₁ _) _ (Printed.printf s₁ _) fun c h0 hlt hc => ?_
    omega

lemma dirChange_eq (s : FS) (name : List UInt8) :
    Printed s (dirChange name s).2 ∧ (dirChange name s).1 = -1 ∨
      dirChange name s = (0, moveTo s ((s.inode (searchCurDir s name)).direct 0)) := by
  unfold dirChange
  dsimp only
  split_ifs
  · exact Or.inl ⟨Printed.printf s _, rfl⟩
  · exact Or.inl ⟨Printed.printf s _, rfl⟩
  · exact Or.inr rfl

lemma dirChange_moved (s : FS) (name : List UInt8) : Moved s (dirChange name s).2 := by
  rcases dirChange_eq s name with ⟨hprint, -⟩ | heq
  · exact hprint.moved
  · rw [heq]
    exact moveTo_moved s _

/-- `cd` to a directory makes it the current one. -/
lemma dirChange_to {s : FS} {name : List UInt8} {d : ℤ} (hsearch : searchCurDir s name = d)
    (hd : IsDir s d) (hblock : Marked s ((s.inode d).direct 0)) :
    (dirChange name s).2.curDirBlock = (s.inode d).direct 0 ∧
      (dirChange name s).2.curDir = dirAt s d := by
  have hne := hd.1.ne_neg_one
  have htype : ¬ (s.inode d).type ≠ .directory := not_not.mpr hd.2
  have heq : dirChange name s = (0, moveTo s ((s.inode d).direct 0)) := by
    unfold dirChange readInode
    dsimp only
    rw [hsearch, if_neg hne, if_neg htype]
    rfl
  have hmoved := moveTo_moved s ((s.inode d).direct 0)
  have hcurDirBlock : (moveTo s ((s.inode d).direct 0)).curDirBlock = (s.inode d).direct 0 := by
    unfold moveTo
    dsimp only
    rw [readDiskBlock_eq hblock.1 hblock.2.1]
  rw [heq]
  refine ⟨hcurDirBlock, ?_⟩
  have hlive := liveDir_eq (moveTo s ((s.inode d).direct 0)) ((s.inode d).direct 0)
  rw [hmoved.written _ hblock.1 hblock.2.1, ← liveDir_eq, liveDir,
    if_pos hcurDirBlock.symm] at hlive
  exact hlive

/-! ## Runs of `cd` -/

/-- Every directory has its own marked block, no block is owned twice, and one of the directories
is the current one. -/
structure DirsOwned (s : FS) : Prop where
  marked : ∀ d, IsDir s d → Marked s ((s.inode d).direct 0)
  once : ∀ i j b, Allocated s i → Allocated s j → b ∈ owned s.disk (s.inode i) →
    b ∈ owned s.disk (s.inode j) → i = j
  current : ∃ c, IsDir s c ∧ (s.inode c).direct 0 = s.curDirBlock

lemma Store.dirsOwned {s : FS} (h : Store s)
    (hcurrent : ∃ c, IsDir s c ∧ (s.inode c).direct 0 = s.curDirBlock) : DirsOwned s where
  marked := fun _ hd => h.marked hd.1 hd.block_mem
  once := h.separate.eq_of_mem
  current := hcurrent

/-- No file has the block of the current directory. -/
lemma DirsOwned.ne_curDirBlock {s : FS} (h : DirsOwned s) {i b : ℤ} (hi : IsFile s i)
    (hb : b ∈ fileBlocks s.disk (s.inode i)) : b ≠ s.curDirBlock := by
  rintro rfl
  obtain ⟨c, hc, hcur⟩ := h.current
  have hmem : s.curDirBlock ∈ owned s.disk (s.inode c) := hcur ▸ hc.block_mem
  have hic := h.once i c s.curDirBlock hi.1 hc.1 (owned_file hi.2 ▸ hb) hmem
  exact hi.not_isDir (hic ▸ hc)

lemma runCommands_moved {lines : List (Junk × Line)}
    (hlines : ∀ line ∈ lines, line.2.comm = str "cd") (s : FS) : Moved s (runCommands lines s) := by
  induction lines generalizing s with
  | nil => exact (Printed.refl s).moved
  | cons line lines ih =>
    obtain ⟨junk, comm, arg1, arg2, numArg⟩ := line
    obtain rfl : comm = str "cd" := hlines _ List.mem_cons_self
    have hstep : Moved s (executeCommand junk ⟨str "cd", arg1, arg2, numArg⟩ s).2 := by
      rw [executeCommand_cd]
      split_ifs
      · exact (Printed.printf s _).moved
      · exact dirChange_moved s _
    exact hstep.trans (ih (fun l hl => hlines l (List.mem_cons_of_mem _ hl)) _)

/-- `cd` down to a directory whose `..` is the current one, and up again. -/
lemma down_and_up {s : FS} (hmarked : ∀ d, IsDir s d → Marked s ((s.inode d).direct 0)) {c d : ℤ}
    {name : List UInt8} (hc : IsDir s c) (hcur : (s.inode c).direct 0 = s.curDirBlock)
    (hd : IsDir s d) (hsearch : searchCurDir s name = d) {k : ℕ}
    (hup : (dirAt s d).find (str "..") = some k)
    (hparent : ((dirAt s d).entry k).inode.toInt = c) :
    (dirChange (str "..") (dirChange name s).2).2.curDirBlock = s.curDirBlock ∧
      (dirChange (str "..") (dirChange name s).2).2.curDir = s.curDir := by
  have hmoved := dirChange_moved s name
  obtain ⟨hblock, hdir⟩ := dirChange_to hsearch hd (hmarked d hd)
  generalize (dirChange name s).2 = s₁ at hmoved hblock hdir
  have hsearch₁ : searchCurDir s₁ (str "..") = c := by
    apply searchCurDir_of_find (hdir ▸ hup)
    rw [hdir, hparent]
  have hmarked₁ : Marked s₁ ((s₁.inode c).direct 0) := by
    rw [hmoved.marked, hmoved.inode_eq]
    exact hmarked c hc
  obtain ⟨hblock₂, hdir₂⟩ := dirChange_to hsearch₁ ((hmoved.isDir c).mpr hc) hmarked₁
  refine ⟨?_, ?_⟩
  · rw [hblock₂, hmoved.inode_eq, hcur]
  · rw [hdir₂, hmoved.dirAt_eq (hmarked c hc), dirAt_current hcur]

/-- However often the directory changes, no directory and no file does.  From any point of the run
`cd` to a directory below and `cd ..` lead back. -/
theorem cd_keeps {s : FS} (h : DirsOwned s) (lines : List (Junk × Line))
    (hlines : ∀ line ∈ lines, line.2.comm = str "cd") :
    let s' := runCommands lines s
    (∀ d, IsDir s d → dirAt s' d = dirAt s d) ∧
      (∀ i, IsFile s i → ∀ b ∈ fileBlocks s.disk (s.inode i), s'.disk b = s.disk b) ∧
      s'.inodeMap = s.inodeMap ∧ s'.blockMap = s.blockMap ∧ s'.superBlock = s.superBlock ∧
      s'.inode = s.inode ∧
      ∀ (junk junk' : Junk) (name arg arg' : Word) (n n' : ℤ), 1 ≤ n → 1 ≤ n' → ∀ c d k,
        IsDir s' c → (s'.inode c).direct 0 = s'.curDirBlock →
        searchCurDir s' name.text = d → IsDir s' d →
        (dirAt s' d).find (str "..") = some k → ((dirAt s' d).entry k).inode.toInt = c →
        let s'' := runCommands [(junk, ⟨str "cd", name, arg, n⟩),
          (junk', ⟨str "cd", Word.of "..", arg', n'⟩)] s'
        s''.curDirBlock = s'.curDirBlock ∧ s''.curDir = s'.curDir := by
  have hmoved := runCommands_moved hlines s
  refine ⟨fun d hd => hmoved.dirAt_eq (h.marked d hd), fun i hi b hb => ?_, hmoved.inodeMap_eq,
    hmoved.blockMap_eq, hmoved.superBlock_eq, hmoved.inode_eq, ?_⟩
  · exact hmoved.disk_eq (h.ne_curDirBlock hi hb)
  · intro junk junk' name arg arg' n n' hn hn' c d k hc hcur hsearch hd hup hparent
    have hmarked : ∀ d, IsDir (runCommands lines s) d →
        Marked (runCommands lines s) (((runCommands lines s).inode d).direct 0) := by
      intro d hd
      rw [hmoved.marked, hmoved.inode_eq]
      exact h.marked d ((hmoved.isDir d).mp hd)
    have hback := down_and_up hmarked hc hcur hd hsearch hup hparent
    unfold runCommands at hback ⊢
    simp only [List.foldl_cons, List.foldl_nil, executeCommand_cd]
    rw [if_neg (by omega), if_neg (by omega)]
    exact hback

/-- In the root a directory `d` and a file `a`. -/
def dirAndFile : FS :=
  runCommands [(Junk.zero, ⟨str "mkdir", Word.d, Word.none, 1⟩),
    (Junk.zero, ⟨str "create", Word.a, Word.one, 2⟩)] mounted

lemma dirAndFile_dirsOwned : DirsOwned dirAndFile := by
  have hinodes : ∀ k < maxInode, bitAt dirAndFile.inodeMap k = true → k < 3 := by decide +kernel
  have hblocks : ∀ i ∈ [(0 : ℤ), 1, 2], ∀ b ∈ owned dirAndFile.disk (dirAndFile.inode i),
      0 ≤ b ∧ b < (maxBlock : ℤ) ∧ bitAt dirAndFile.blockMap b = true := by decide +kernel
  have honce : ∀ i ∈ [(0 : ℤ), 1, 2], ∀ j ∈ [(0 : ℤ), 1, 2],
      ∀ b ∈ owned dirAndFile.disk (dirAndFile.inode i),
        b ∈ owned dirAndFile.disk (dirAndFile.inode j) → i = j := by decide +kernel
  have hmem : ∀ i, Allocated dirAndFile i → i ∈ [(0 : ℤ), 1, 2] := by
    rintro i ⟨h0, hlt, hbit⟩
    lift i to ℕ using h0
    have hi := hinodes i (by omega) hbit
    interval_cases i <;> decide
  refine ⟨fun d hd => hblocks d (hmem d hd.1) _ hd.block_mem,
    fun i j b hi hj hb hb' => honce i (hmem i hi) j (hmem j hj) b hb hb', 0, ?_, ?_⟩
  · unfold IsDir Allocated
    decide +kernel
  · decide +kernel

def downAndUp : List (Junk × Line) :=
  [(Junk.zero, ⟨str "cd", Word.d, Word.none, 1⟩),
    (Junk.zero, ⟨str "cd", Word.of "..", Word.none, 1⟩)]

/-- Down and up again, and to a name that there is not. -/
def wander : List (Junk × Line) := downAndUp ++ [(Junk.zero, ⟨str "cd", Word.x, Word.none, 1⟩)]

/-- Behind these commands, and once more down and up. -/
theorem cd_keeps_dirAndFile :
    let s' := runCommands wander dirAndFile
    (dirAt s' 0 = dirAt dirAndFile 0 ∧ dirAt s' 1 = dirAt dirAndFile 1) ∧
      (∀ b ∈ fileBlocks dirAndFile.disk (dirAndFile.inode 2), s'.disk b = dirAndFile.disk b) ∧
        (runCommands downAndUp s').curDirBlock = s'.curDirBlock ∧
          (runCommands downAndUp s').curDir = s'.curDir := by
  have hkeeps := cd_keeps dirAndFile_dirsOwned wander (by decide)
  dsimp only at hkeeps ⊢
  obtain ⟨hdirs, hfiles, -, -, -, -, hback⟩ := hkeeps
  have hdir : ∀ d ∈ [(0 : ℤ), 1], IsDir dirAndFile d ∧
      IsDir (runCommands wander dirAndFile) d := by
    unfold IsDir Allocated
    decide +kernel
  have hfile : IsFile dirAndFile 2 := by
    unfold IsFile Allocated
    decide +kernel
  refine ⟨⟨hdirs 0 (hdir 0 (by decide)).1, hdirs 1 (hdir 1 (by decide)).1⟩, hfiles 2 hfile, ?_⟩
  exact hback Junk.zero Junk.zero Word.d Word.none Word.none 1 1 le_rfl le_rfl 0 1 1
    (hdir 0 (by decide)).2 (by decide +kernel) (by decide +kernel) (hdir 1 (by decide)).2
    (by decide +kernel) (by decide +kernel)

end OsProjects.FileSys
