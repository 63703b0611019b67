import OsProjects.FileSys.Contents
import OsProjects.FileSys.Dispatch

/-!
# Files survive

Runs of file commands after a file is created.  Its inode and those of its copies
are followed through the run; while they are allocated, `cat` prints the text the
file was created with.
-/

namespace OsProjects.FileSys
open Ownership

/-- The file system as far as the file commands rely on it.  A file in the current directory has
at least as many links as it has entries there, and not so many more that a command could make
the count overflow. -/
structure Sound (s : FS) : Prop extends Ready s where
  links_ge : ∀ i, IsFile s i → s.curDir.inodes.count i ≤ (s.inode i).linkCount.toInt
  links_le : ∀ i, IsFile s i →
    (s.inode i).linkCount.toInt ≤ s.curDir.inodes.count i + (2 ^ 31 - 22)

/-- Of the inodes that hold copies of a file those that are left after a command, and the new one
if the command copies one of them. -/
def copiesAfter (junk : Junk) (line : Line) (s : FS) (copies : List ℤ) : List ℤ :=
  let (ret, s') := executeCommand junk line s
  let copies :=
    if line.comm = str "cp" ∧ ret = 0 ∧ searchCurDir s line.arg1.text ∈ copies then
      (s'.curDir.entry s.curDir.count).inode.toInt :: copies
    else copies
  copies.filter fun i => getInodeMap s' i

/-- The file system after some commands, and the copies of a file then. -/
def follow (lines : List (Junk × Line)) (st : FS × List ℤ) : FS × List ℤ :=
  lines.foldl (fun (s, copies) (junk, line) =>
    ((executeCommand junk line s).2, copiesAfter junk line s copies)) st

/-- `follow` runs the commands. -/
lemma follow_fst (lines : List (Junk × Line)) (st : FS × List ℤ) :
    (follow lines st).1 = runCommands lines st.1 := by
  induction lines generalizing st with
  | nil => rfl
  | cons line lines ih => exact ih _

namespace Sound
variable {s s' : FS} {name : List UInt8}

lemma relink (h : Sound s) (hrelink : Relinked s s') (hfits : s'.curDir.Fits)
    (hentries : ∀ i ∈ s'.curDir.inodes, i ∈ s.curDir.inodes)
    (hlinks : ∀ i, IsFile s i → (s'.inode i).linkCount.toInt + s.curDir.inodes.count i =
      (s.inode i).linkCount.toInt + s'.curDir.inodes.count i) : Sound s' where
  store := hrelink.store h.store
  fits := hfits
  entries := by
    intro i hi
    exact (hrelink.allocated i).mpr (h.entries i (hentries i hi))
  links_ge := by
    intro i hi
    have hi' : IsFile s i := ⟨(hrelink.allocated i).mp hi.1, hrelink.type_eq i ▸ hi.2⟩
    have hge := h.links_ge i hi'
    have hchange := hlinks i hi'
    omega
  links_le := by
    intro i hi
    have hi' : IsFile s i := ⟨(hrelink.allocated i).mp hi.1, hrelink.type_eq i ▸ hi.2⟩
    have hle := h.links_le i hi'
    have hchange := hlinks i hi'
    omega

/-- An inode that is named has a link that is counted. -/
lemma count_pos_of_mem {l : List ℤ} {i : ℤ} (h : i ∈ l) : 1 ≤ l.count i := List.count_pos_iff.mpr h

lemma link (h : Sound s) (dest : List UInt8) {k : ℕ} {i : Int32} (hk : k < s.curDir.count)
    (hi : (s.curDir.entry k).inode = i) (hroom : s.curDir.count < 21) :
    Sound (linked s i.toInt dest) := by
  have hinodes : (linked s i.toInt dest).curDir.inodes = s.curDir.inodes ++ [i.toInt] :=
    Dentry.add_inodes h.fits hroom
  have hlength := Dentry.length_inodes s.curDir
  refine h.relink (linked_relinked s i.toInt dest) (Dentry.add_fits h.fits hroom _) ?_ ?_
  · intro j hj
    rw [hinodes, List.mem_append, List.mem_singleton] at hj
    rcases hj with hj | rfl
    · exact hj
    · exact Dentry.mem_inodes.mpr ⟨k, hk, by rw [hi]⟩
  · intro j hj
    apply linked_balance h.fits hroom
    have hle := h.links_le j hj
    have hcount : s.curDir.inodes.count j ≤ s.curDir.inodes.length := List.count_le_length
    omega

lemma unlink (h : Sound s) {k : ℕ} {i : ℤ} (hfind : s.curDir.find name = some k)
    (hi : (s.curDir.entry k).inode.toInt = i) : Sound (unlinked s i name) := by
  refine h.relink (unlinked_relinked s i name) (Dentry.remove_fits h.fits hfind) ?_ ?_
  · intro j hj
    have hinodes : (unlinked s i name).curDir.inodes = s.curDir.inodes.eraseIdx k :=
      Dentry.remove_inodes h.fits hfind
    rw [hinodes] at hj
    exact List.mem_of_mem_eraseIdx hj
  · intro j hj
    apply unlinked_balance h.fits hfind hi
    have hge := h.links_ge j hj
    omega

lemma make (h : Sound s) {i : Int32} (hmade : Made s name i s')
    (hok : FileOk (s'.inode i.toInt)) : Sound s' where
  store := hmade.store h.store fun _ => hok
  fits := by
    rw [hmade.curDir]
    exact Dentry.add_fits h.fits hmade.room _
  entries := by
    intro j hj
    rw [hmade.inodes_eq h.fits, List.mem_append, List.mem_singleton] at hj
    rw [hmade.allocated]
    exact hj.imp_left (h.entries j)
  links_ge := by
    intro j hj
    rw [hmade.inodes_eq h.fits, List.count_append, List.count_singleton]
    rcases (hmade.allocated j).mp hj.1 with hj' | rfl
    · have hne : ¬ (i.toInt == j) = true := fun hij =>
        hmade.not_allocated (eq_of_beq hij ▸ hj')
      rw [if_neg hne, hmade.inode_eq hj', Nat.add_zero]
      exact h.links_ge j ⟨hj', hmade.inode_eq hj' ▸ hj.2⟩
    · have hzero : s.curDir.inodes.count i.toInt = 0 :=
        List.count_eq_zero_of_not_mem fun hmem => hmade.not_allocated (h.entries _ hmem)
      rw [hzero, hmade.linkCount, if_pos (beq_self_eq_true _)]
      decide
  links_le := by
    intro j hj
    rw [hmade.inodes_eq h.fits, List.count_append]
    rcases (hmade.allocated j).mp hj.1 with hj' | rfl
    · have hle := h.links_le j ⟨hj', hmade.inode_eq hj' ▸ hj.2⟩
      rw [hmade.inode_eq hj']
      omega
    · have hone : (1 : Int32).toInt = 1 := rfl
      rw [hmade.linkCount, hone]
      omega

lemma drop (h : Sound s) {k : ℕ} {i : ℤ} (hdrop : Dropped s name k i s')
    (hfile : (s.inode i).type = .file) : Sound s' where
  store := hdrop.store h.store (h.entries i hdrop.mem_inodes)
  fits := by
    rw [hdrop.curDir]
    exact Dentry.remove_fits h.fits hdrop.find
  entries := by
    intro j hj
    have hi : IsFile s i := ⟨h.entries i hdrop.mem_inodes, hfile⟩
    have hge := h.links_ge i hi
    have hlast := hdrop.last
    have hcount := hdrop.count_inodes h.fits i
    rw [if_pos rfl] at hcount
    rw [CInt.toInt_sub_one (by omega)] at hlast
    refine (hdrop.allocated j).mpr ⟨h.entries j ?_, ?_⟩
    · rw [hdrop.inodes_eq h.fits] at hj
      exact List.mem_of_mem_eraseIdx hj
    · -- the link that goes was the last one that is counted
      rintro rfl
      have hpos := count_pos_of_mem hj
      omega
  links_ge := by
    intro j hj
    have hne := ((hdrop.allocated j).mp hj.1).2
    have hcount := hdrop.count_inodes h.fits j
    have hge := h.links_ge j ⟨((hdrop.allocated j).mp hj.1).1, hdrop.inode_eq hj.1 ▸ hj.2⟩
    rw [if_neg hne] at hcount
    rw [hdrop.inode_eq hj.1]
    omega
  links_le := by
    intro j hj
    have hne := ((hdrop.allocated j).mp hj.1).2
    have hcount := hdrop.count_inodes h.fits j
    have hle := h.links_le j ⟨((hdrop.allocated j).mp hj.1).1, hdrop.inode_eq hj.1 ▸ hj.2⟩
    rw [if_neg hne] at hcount
    rw [hdrop.inode_eq hj.1]
    omega

end Sound

lemma FileStep.sound {s s' : FS} (hstep : FileStep s s') (h : Sound s) : Sound s' := by
  cases hstep with
  | print hprint =>
    have hinode : s'.inode = s.inode := by rw [hprint]
    have hcurDir : s'.curDir = s.curDir := by rw [hprint]
    refine h.relink ⟨by rw [hprint], fun j => by rw [hinode]⟩ (hcurDir ▸ h.fits) ?_ ?_
    · exact fun i hi => hcurDir ▸ hi
    · intro i _
      rw [hinode, hcurDir]
  | make hmade hfile hok => exact h.make hmade hok
  | link dest hk hi hroom => exact h.link dest hk hi hroom
  | unlink hfind hi hfile hpos => exact h.unlink hfind hi
  | drop hdrop hfile => exact h.drop hdrop hfile

/-! ## Contents through a step -/

section Step
variable {s s' : FS} {c : List UInt8} {i : ℤ}

lemma Contains.relink (h : Contains s c i) (hrelink : Relinked s s') : Contains s' c i where
  isFile := ⟨(hrelink.allocated i).mpr h.isFile.1, (hrelink.type_eq i).trans h.isFile.2⟩
  size := by
    rw [hrelink.inode i]
    exact h.size
  part := by
    have hdisk : s'.disk = s.disk := by rw [hrelink.rest]
    rw [hrelink.inode i, hdisk]
    exact h.part

/-- The same inode and the same blocks, with the same bytes. -/
lemma Contains.congr (h : Contains s c i) (halloc : Allocated s' i)
    (hinode : s'.inode i = s.inode i)
    (hdisk : ∀ b ∈ fileBlocks s.disk (s.inode i), s'.disk b = s.disk b) : Contains s' c i where
  isFile := ⟨halloc, by rw [hinode, h.isFile.2]⟩
  size := by rw [hinode, h.size]
  part := by
    intro k hk
    rw [hinode] at hk ⊢
    have hblock : dataBlock s'.disk (s.inode i) k = dataBlock s.disk (s.inode i) k :=
      dataBlock_congr fun hlarge => hdisk _ (indirectBlock_mem (by omega))
    rw [hblock]
    intro j hj hlength
    rw [hdisk _ (dataBlock_mem hk)]
    exact h.part k hk j hj hlength

/-- No step but the one that frees a file changes its contents. -/
lemma FileStep.contains (hstep : FileStep s s') (hs : Store s) (h : Contains s c i)
    (halloc : Allocated s' i) : Contains s' c i := by
  cases hstep with
  | print hprint =>
    have hinode : s'.inode = s.inode := by rw [hprint]
    exact h.relink ⟨by rw [hprint], fun j => by rw [hinode]⟩
  | make hmade hfile hok =>
    refine h.congr halloc (hmade.inode_eq h.isFile.1) fun b hb => hmade.disk_eq ?_
    exact hs.marked h.isFile.1 (owned_file h.isFile.2 ▸ hb)
  | link dest hk hi hroom => exact h.relink (linked_relinked s _ dest)
  | unlink hfind hi hfile hpos => exact h.relink (unlinked_relinked s _ _)
  | drop hdrop hfile =>
    refine h.congr halloc (hdrop.inode_eq halloc) fun b _ => ?_
    rw [hdrop.disk]

end Step

/-! ## New files -/

lemma randString_length (junk : Junk) (n : ℕ) : (randString junk n).length = n := by
  rw [randString, List.length_map, List.length_range]

lemma randString_ne_zero (junk : Junk) (n : ℕ) : 0 ∉ randString junk n := by
  have hchar : ∀ k < 62, charset.getD k 0 ≠ 0 := by decide
  intro h0
  obtain ⟨k, -, hk⟩ := List.mem_map.mp h0
  exact hchar _ (Nat.mod_lt _ (by decide)) hk

lemma tmpBlock_part (junk : Junk) (c : List UInt8) (k : ℕ) {disk : ℤ → Block} {b : ℤ}
    (hb : disk b = tmpBlock junk c k) : Part disk c k b := by
  intro j hj hlength
  have hsum : k * 512 + j = 512 * k + j := by omega
  rw [hb, byteAt_of_lt _ hj]
  simp only [tmpBlock, blockSize, hsum]
  have hlt : 512 * k + j < (c ++ [0]).length := by
    rw [List.length_append, List.length_singleton]
    omega
  rw [List.getD_eq_getElem _ _ hlt, List.getD_eq_getElem _ _ hlt]

/-- After `file_create` the name is resolved to an inode that was free, and it holds the text. -/
lemma fileCreate_contains {s s' : FS} (hs : Sound s) {junk : Junk} {name : Word} {size : Int32}
    (hcreate : fileCreate junk name.text size s = (0, s')) :
    Sound s' ∧ getInodeMap s (searchCurDir s' name.text) = false ∧
      Contains s' (randString junk size.toInt.toNat) (searchCurDir s' name.text) := by
  rcases fileCreate_spec hs.toReady junk name.text size with
    ⟨s'', heq, -⟩ | ⟨i, s'', heq, hmade, hfind, hfile, hok, hsize, hcontent⟩
  · rw [heq] at hcreate
    cases hcreate
  · rw [heq] at hcreate
    obtain rfl : s'' = s' := congrArg Prod.snd hcreate
    have hlength := name.length_le
    -- the new entry is the first one of its name
    have hsearch : searchCurDir s'' name.text = i.toInt := by
      have hfirst : s''.curDir.find name.text = some s.curDir.count := by
        rw [hmade.curDir]
        exact Dentry.find_add hs.fits hmade.room hfind name.ne_zero (by omega) _
      unfold searchCurDir
      rw [hfirst]
      dsimp only
      rw [hmade.curDir, Dentry.add_entry_last hmade.room, Int32.ofInt_toInt]
    rw [hsearch, getInodeMap_eq]
    refine ⟨hs.make hmade hok, hmade.fresh, ?_⟩
    refine { isFile := ⟨(hmade.allocated _).mpr (Or.inr rfl), hfile⟩, size := ?_, part := ?_ }
    · have hpos := hok.size_pos
      rw [hsize] at hpos
      rw [hsize, randString_length]
      omega
    · intro k hk
      exact tmpBlock_part junk _ k (hcontent k hk)

lemma Contains.copy {s s' : FS} {c : List UInt8} {j : ℤ} {i : Int32} (h : Contains s c j)
    (halloc : Allocated s' i.toInt) (hfile : (s'.inode i.toInt).type = .file)
    (hs : FileOk (s.inode j)) (hs' : FileOk (s'.inode i.toInt))
    (hsize : (s'.inode i.toInt).size = (s.inode j).size)
    (hcontent : ∀ k < (s'.inode i.toInt).blocks,
      s'.disk (dataBlock s'.disk (s'.inode i.toInt) k) =
        s.disk (dataBlock s.disk (s.inode j) k)) : Contains s' c i.toInt where
  isFile := ⟨halloc, hfile⟩
  size := by rw [hsize, h.size]
  part := by
    intro k hk l hl hlength
    have hblocks : (s'.inode i.toInt).blocks = (s.inode j).blocks := by
      have hcast := hs.blocks_cast
      have hcast' := hs'.blocks_cast
      rw [hsize] at hcast'
      omega
    rw [hcontent k hk]
    exact h.part k (hblocks ▸ hk) l hl hlength

/-! ## Runs -/

section Run
variable {c : List UInt8}

/-- After a command the copies that are left still hold the text, and so does a new one. -/
lemma copiesAfter_contains {s : FS} (hs : Sound s) (junk : Junk) {line : Line}
    (hline : line.comm ∈ fileCommands) {copies : List ℤ} (h : ∀ i ∈ copies, Contains s c i) :
    ∀ i ∈ copiesAfter junk line s copies, Contains (executeCommand junk line s).2 c i := by
  intro i hi
  unfold copiesAfter at hi
  rw [List.mem_filter, getInodeMap_eq] at hi
  obtain ⟨hi, hbit⟩ := hi
  have hold : i ∈ copies → Contains (executeCommand junk line s).2 c i := by
    intro hi
    obtain ⟨h0, hlt, -⟩ := (h i hi).isFile.1
    exact (executeCommand_step hs.toReady junk hline).contains hs.store (h i hi) ⟨h0, hlt, hbit⟩
  split_ifs at hi with hcopy
  · rcases List.mem_cons.mp hi with hnew | hi
    · obtain ⟨comm, arg1, arg2, numArg⟩ := line
      obtain ⟨rfl, hret, hsrc⟩ := hcopy
      rw [executeCommand_cp] at hret hnew ⊢
      split_ifs at hret hnew ⊢
      · cases hret
      · rcases fileCopy_spec hs.toReady junk arg1.text arg2.text with
          ⟨s', heq, -⟩ | ⟨j, s', heq, hmade, -, -, hfile, hok, hsize, hcontent⟩
        · rw [heq] at hret
          cases hret
        · rw [heq] at hnew ⊢
          dsimp only at hnew hsrc ⊢
          rw [hmade.curDir, Dentry.add_entry_last hmade.room, Int32.ofInt_toInt] at hnew
          rw [hnew]
          have hsrc' := h _ hsrc
          exact hsrc'.copy ((hmade.allocated _).mpr (Or.inr rfl)) hfile
            (hs.store.files _ hsrc'.isFile.1 hsrc'.isFile.2) hok hsize hcontent
    · exact hold hi
  · exact hold hi

lemma follow_contains (lines : List (Junk × Line))
    (hlines : ∀ line ∈ lines, line.2.comm ∈ fileCommands) (st : FS × List ℤ) (hs : Sound st.1)
    (h : ∀ i ∈ st.2, Contains st.1 c i) :
    Sound (follow lines st).1 ∧ ∀ i ∈ (follow lines st).2, Contains (follow lines st).1 c i := by
  induction lines generalizing st with
  | nil => exact ⟨hs, h⟩
  | cons line lines ih =>
    obtain ⟨s, copies⟩ := st
    obtain ⟨junk, line⟩ := line
    have hline : line.comm ∈ fileCommands := hlines (junk, line) List.mem_cons_self
    exact ih (fun l hl => hlines l (List.mem_cons_of_mem _ hl)) _
      ((executeCommand_step hs.toReady junk hline).sound hs)
      (copiesAfter_contains hs junk hline h)

end Run

/-- A file that is created with a text, and every copy of it that is made since, directly or
through other copies, prints as that text until its inode is freed. -/
def ContentsSurvive (s : FS) : Prop :=
  ∀ (junk : Junk) (name : Word) (size : Int32) (s₁ : FS),
    fileCreate junk name.text size s = (0, s₁) →
    ∀ lines : List (Junk × Line), (∀ line ∈ lines, line.2.comm ∈ fileCommands) →
      let i := searchCurDir s₁ name.text
      let c := randString junk size.toInt.toNat
      let (s₂, copies) := follow lines (s₁, [i])
      getInodeMap s i = false ∧ c.length = size.toInt ∧ 0 ∉ c ∧ s₂ = runCommands lines s₁ ∧
        ∀ (junk₂ : Junk) (name₂ : List UInt8), searchCurDir s₂ name₂ ∈ copies →
          fileCat junk₂ name₂ s₂ = (0, printf s₂ c)

theorem contents_survive {s : FS} (hs : Sound s) : ContentsSurvive s := by
  intro junk name size s₁ hcreate lines hlines
  obtain ⟨hs₁, hfresh, hcontains⟩ := fileCreate_contains hs hcreate
  obtain ⟨hs₂, hcopies⟩ := follow_contains lines hlines (s₁, [searchCurDir s₁ name.text]) hs₁
    fun i hi => List.mem_singleton.mp hi ▸ hcontains
  have hsize : 0 ≤ size.toInt := by
    by_contra hneg
    have hempty : randString junk size.toInt.toNat = [] := by
      rw [Int.toNat_of_nonpos (by omega)]
      rfl
    have hlength := hcontains.size
    have hpos := (hs₁.store.files _ hcontains.isFile.1 hcontains.isFile.2).size_pos
    rw [hempty] at hlength
    have hzero : ((s₁.inode (searchCurDir s₁ name.text)).size.toInt) = 0 := hlength
    omega
  refine ⟨hfresh, ?_, randString_ne_zero junk _, follow_fst lines _, fun junk₂ name₂ hmem => ?_⟩
  · rw [randString_length, Int.toNat_of_nonneg hsize]
  · exact fileCat_contains (randString_ne_zero junk _) hs₂.store junk₂ (hcopies _ hmem)

/-- Every state that the file commands reach from a new file system is sound. -/
lemma Consistent.sound {s : FS} (h : Consistent s) : Sound s := by
  obtain ⟨c, hc, hcur⟩ := h.current
  have hle : ∀ i, s.curDir.inodes.count i ≤ links s i := by
    intro i
    rw [← dirAt_current hcur]
    exact @count_le_references _ _ _ (fun d => (dirAt s d).inodes) c (mem_dirs.mpr hc) i
  refine { h.ready with links_ge := ?_, links_le := ?_ }
  · intro i hi
    have hcount := h.linkCount i hi
    have := hle i
    omega
  · intro i hi
    have hcount := h.linkCount i hi
    have := h.links_le i
    omega

/-- The file `a` is copied to `d`, which gets the second name `e`; then `a` is removed and its inode
goes to the new file `x`. -/
def copyAndRemove : List (Junk × Line) :=
  [(Junk.zero, ⟨str "cp", Word.a, Word.d, 2⟩), (Junk.zero, ⟨str "ln", Word.d, Word.e, 2⟩),
    (Junk.zero, ⟨str "rm", Word.a, Word.none, 1⟩), (Junk.zero, ⟨str "create", Word.x, Word.one, 2⟩)]

theorem contents_survive_first :
    let s₁ := (fileCreate Junk.zero (str "a") 3 mounted).2
    let s₂ := runCommands copyAndRemove s₁
    searchCurDir s₂ (str "x") = searchCurDir s₁ (str "a") ∧
      searchCurDir s₂ (str "e") ≠ searchCurDir s₁ (str "a") ∧
        fileCat Junk.zero (str "e") s₂ = (0, printf s₂ (str "aaa")) := by
  intro s₁ s₂
  have hfresh : Fresh mounted := fsMountNew_eq ▸ fsMountNew_fresh
  have hret : (fileCreate Junk.zero (str "a") 3 mounted).1 = 0 := by decide +kernel
  have hall := contents_survive hfresh.consistent.sound Junk.zero Word.a 3 s₁ (Prod.ext hret rfl)
    copyAndRemove (by decide)
  extract_lets i c at hall
  have hcopy : searchCurDir (follow copyAndRemove (s₁, [i])).1 (str "e") ∈
      (follow copyAndRemove (s₁, [i])).2 := by decide +kernel
  have hc : c = str "aaa" := by decide
  generalize follow copyAndRemove (s₁, [i]) = st at hall hcopy
  obtain ⟨-, -, -, hrun, hcat⟩ := hall
  refine ⟨by decide +kernel, by decide +kernel, ?_⟩
  have hout := hcat Junk.zero (str "e") hcopy
  rw [hrun, hc] at hout
  exact hout

/-! ## Entries that name free inodes -/

/-- What the counters, the bit maps and the inodes say is right. -/
structure BlocksConsistent (s : FS) : Prop where
  inodes : InodesCounted s
  blocks : BlocksCounted s
  separate : Separate (Allocated s) (fun i => owned s.disk (s.inode i))
    fun b => firstDataBlock ≤ b ∧ Marked s b

/-- In the root there is an entry for the inode 5, which is free and lists the block 132. -/
def staleState : FS :=
  { mounted with
    inode := Function.update mounted.inode 5 ⟨.file, 1, 1, fun _ => 132, 0, 1, fun _ => 0⟩
    curDir := rootDir.add (str "d") 5 }

lemma staleState_consistent : BlocksConsistent staleState := by
  have hfresh : Fresh mounted := fsMountNew_eq ▸ fsMountNew_fresh
  have hroot : ∀ i, Allocated staleState i → i = 0 := fun i hi => (hfresh.allocated i).mp hi
  have howned : owned staleState.disk (staleState.inode 0) = [firstDataBlock] := hfresh.owned_root
  refine ⟨hfresh.inodes, hfresh.blocks, ?_, ?_, ?_⟩
  · intro i hi b hb
    rw [hroot i hi, howned, List.mem_singleton] at hb
    exact ⟨hb.ge, (hfresh.marked b).mpr ⟨hb ▸ by decide, hb.le⟩⟩
  · intro i hi
    rw [hroot i hi, howned]
    exact List.nodup_singleton _
  · intro i j b hi hj _ _
    rw [hroot i hi, hroot j hj]

/-- `rand` first gives `k`. -/
def Junk.rolls (k : ℕ) : Junk := { Junk.zero with rand := fun _ => k }

/-- Removing the entry frees the block 132 under the file `f`, and the next file overwrites it. -/
theorem contents_overwritten : ¬ ∀ s, BlocksConsistent s → ContentsSurvive s := by
  intro h
  have hret : (fileCreate Junk.zero (str "f") 1 staleState).1 = 0 := by decide +kernel
  have hsurvive := h staleState staleState_consistent Junk.zero (Word.of "f") 1 _
    (Prod.ext hret rfl)
    [(Junk.zero, ⟨str "rm", Word.of "d", Word.of "", 1⟩),
      (Junk.rolls 1, ⟨str "create", Word.of "g", Word.of "1", 2⟩)] (by decide)
  obtain ⟨-, -, -, -, hcat⟩ := hsurvive
  have hout := congrArg (fun r => r.2.stdout) (hcat Junk.zero (str "f") (by decide +kernel))
  revert hout
  decide +kernel

end OsProjects.FileSys
