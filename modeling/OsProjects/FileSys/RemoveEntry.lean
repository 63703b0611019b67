import OsProjects.FileSys.MakeDir

/-!
# Removing an entry

`rm` and `rmdir` move the entries behind the one that goes down by one.  A name is
copied over an older one without its NUL, so that it ends where it should only if
the older name happens to have a NUL there.
-/

namespace OsProjects.FileSys

/-- There is a NUL at the place `k` of the name. -/
def DirectoryEntry.NulAt (e : DirectoryEntry) (k : ℕ) : Prop := ∃ h : k < 20, e.name ⟨k, h⟩ = 0

/-- The bytes that the name as a C string is the front of. -/
def DirectoryEntry.bytes (e : DirectoryEntry) : List UInt8 :=
  List.ofFn e.name ++
    [CInt.byte e.inode 0, CInt.byte e.inode 1, CInt.byte e.inode 2, CInt.byte e.inode 3]

namespace DirectoryEntry
variable {e : DirectoryEntry} {src : List UInt8}

lemma cstr_eq (e : DirectoryEntry) : e.cstr = e.bytes.takeWhile (· ≠ 0) := rfl

lemma zero_notMem_cstr (e : DirectoryEntry) : 0 ∉ e.cstr := by
  intro h0
  have hall := List.mem_takeWhile_imp h0
  simp at hall

lemma bytes_length (e : DirectoryEntry) : e.bytes.length = 24 := by
  rw [bytes, List.length_append, List.length_ofFn]
  rfl

/-- The bytes of the inode number behind the name. -/
def tail (e : DirectoryEntry) : List UInt8 :=
  [CInt.byte e.inode 0, CInt.byte e.inode 1, CInt.byte e.inode 2, CInt.byte e.inode 3]

lemma getElem?_bytes (e : DirectoryEntry) (k : ℕ) :
    e.bytes[k]? = if h : k < 20 then some (e.name ⟨k, h⟩) else e.tail[k - 20]? := by
  change (List.ofFn e.name ++ e.tail)[k]? = _
  rw [List.getElem?_append, List.length_ofFn, List.getElem?_ofFn]
  split_ifs <;> rfl

/-- A name that is copied without its NUL runs on into what was there. -/
lemma cstr_strncpy (e : DirectoryEntry) (z : Int32) (hsrc : 0 ∉ src) (hlength : src.length < 20) :
    ({ name := strncpy e.name src, inode := z } : DirectoryEntry).cstr =
      src ++
        (({ e with inode := z } : DirectoryEntry).bytes.drop src.length).takeWhile (· ≠ 0) := by
  have hbytes : ({ name := strncpy e.name src, inode := z } : DirectoryEntry).bytes =
      src ++ ({ e with inode := z } : DirectoryEntry).bytes.drop src.length := by
    apply List.ext_getElem?
    intro k
    rw [getElem?_bytes, List.getElem?_append, List.getElem?_drop]
    by_cases hk : k < src.length
    · rw [if_pos hk, dif_pos (by omega), List.getElem?_eq_getElem hk]
      exact congrArg some (List.getD_eq_getElem _ _ hk)
    · have hsum : src.length + (k - src.length) = k := by omega
      rw [if_neg hk, hsum, getElem?_bytes]
      split_ifs with hname
      · exact congrArg some (List.getD_eq_default _ _ (show src.length ≤ k by omega))
      · rfl
  rw [cstr_eq, hbytes, List.takeWhile_append_of_pos]
  intro c hc
  rw [decide_eq_true_eq]
  rintro rfl
  exact hsrc hc

/-- It is read back as it was exactly if there was a NUL behind it. -/
lemma cstr_strncpy_iff (e : DirectoryEntry) (z : Int32) (hsrc : 0 ∉ src)
    (hlength : src.length < 20) :
    ({ name := strncpy e.name src, inode := z } : DirectoryEntry).cstr = src ↔
      e.NulAt src.length := by
  have hlt : src.length < ({ e with inode := z } : DirectoryEntry).bytes.length := by
    rw [bytes_length]
    omega
  have hget : ({ e with inode := z } : DirectoryEntry).bytes[src.length] =
      e.name ⟨src.length, hlength⟩ := by
    have hbyte := getElem?_bytes { e with inode := z } src.length
    rw [dif_pos hlength, List.getElem?_eq_getElem hlt] at hbyte
    exact Option.some.inj hbyte
  rw [cstr_strncpy e z hsrc hlength, List.append_right_eq_self, List.drop_eq_getElem_cons hlt, hget]
  unfold NulAt
  by_cases h0 : e.name ⟨src.length, hlength⟩ = 0
  · simp [h0, hlength]
  · simp [h0]

end DirectoryEntry

namespace Dentry
variable {d : Dentry} {name : List UInt8} {i k n : ℕ}

/-- The entries as `search_cur_dir` sees them. -/
def listing (d : Dentry) : List (List UInt8 × ℤ) :=
  (List.range d.count).map fun i => ((d.entry i).cstr, (d.entry i).inode.toInt)

/-- Every name that moves into the slot `i` or a later one finds a NUL behind it. -/
def ShiftsClean (d : Dentry) (i : ℕ) : Prop :=
  ∀ j, i ≤ j → j + 1 < d.count → (d.entry j).NulAt (d.entry (j + 1)).cstr.length

lemma length_listing (d : Dentry) : d.listing.length = d.count := by
  rw [listing, List.length_map, List.length_range]

lemma getElem?_listing {j : ℕ} (h : j < d.count) :
    d.listing[j]? = some ((d.entry j).cstr, (d.entry j).inode.toInt) := by
  rw [listing, List.getElem?_map, List.getElem?_range h]
  rfl

/-- The entries after a shift; each slot is read before it is written. -/
lemma shift_entry (hn : i + n ≤ maxDirEntry) {j : ℕ} (hij : i ≤ j) (hj : j < i + n) :
    (d.shift i n).entry j =
      { name := strncpy (d.entry j).name (d.entry (j + 1)).cstr
        inode := (d.entry (j + 1)).inode } := by
  induction n generalizing d i with
  | zero => omega
  | succ n ih =>
    unfold shift
    by_cases hji : j = i
    · rw [shift_entry_of_lt (by omega) (by omega), entry_setEntry _ _ (by omega), if_pos hji, hji]
    · rw [ih (by omega) (by omega) (by omega), entry_setEntry _ _ (by omega), if_neg hji,
        entry_setEntry _ _ (by omega), if_neg (by omega)]

section Remove
variable (hfits : d.Fits) (hfind : d.find name = some k)
include hfits hfind

lemma remove_entry_of_ge {j : ℕ} (hk : k ≤ j) (hj : j + 1 < d.count) :
    (d.remove name).entry j =
      { name := strncpy (d.entry j).name (d.entry (j + 1)).cstr
        inode := (d.entry (j + 1)).inode } := by
  have hle := hfits.count_le
  rw [remove_eq hfind]
  exact shift_entry (by simp only [maxDirEntry]; omega) hk (by omega)

/-- The other entries stay as they are exactly if the names find their NULs. -/
lemma remove_listing_iff (hnames : ∀ j < d.count, (d.entry j).cstr.length ≤ 15) :
    (d.remove name).listing = d.listing.eraseIdx k ↔ d.ShiftsClean k := by
  have hlt := (find_some hfind).1
  have hcount := remove_count hfits hfind
  have hmoved : ∀ j, k ≤ j → j + 1 < d.count →
      (((d.remove name).entry j).cstr = (d.entry (j + 1)).cstr ↔
        (d.entry j).NulAt (d.entry (j + 1)).cstr.length) := by
    intro j hk hj
    have hname := hnames (j + 1) hj
    rw [remove_entry_of_ge hfits hfind hk hj]
    exact DirectoryEntry.cstr_strncpy_iff _ _ (DirectoryEntry.zero_notMem_cstr _) (by omega)
  constructor
  · intro heq j hk hj
    have hget : (d.remove name).listing[j]? = (d.listing.eraseIdx k)[j]? := by rw [heq]
    rw [getElem?_listing (by omega), List.getElem?_eraseIdx, if_neg (by omega),
      getElem?_listing hj] at hget
    exact (hmoved j hk hj).mp (congrArg Prod.fst (Option.some.inj hget))
  · intro hclean
    apply List.ext_getElem?
    intro j
    rw [List.getElem?_eraseIdx]
    by_cases hj : j + 1 < d.count
    · rw [getElem?_listing (by omega)]
      by_cases hjk : j < k
      · rw [if_pos hjk, getElem?_listing (by omega), remove_entry hfits hfind hjk]
      · rw [if_neg hjk, getElem?_listing hj, (hmoved j (by omega) hj).mpr (hclean j (by omega) hj),
          remove_entry_of_ge hfits hfind (by omega) hj]
    · -- past the end
      rw [List.getElem?_eq_none (by rw [length_listing]; omega), if_neg (by omega),
        List.getElem?_eq_none (by rw [length_listing]; omega)]

end Remove

end Dentry

/-! ## Searching in a listing -/

/-- The search sees the current directory only as a listing. -/
def lookup (l : List (List UInt8 × ℤ)) (name : List UInt8) : ℤ :=
  ((l.find? fun e => command name e.1).map Prod.snd).getD (-1)

lemma searchCurDir_eq (s : FS) (name : List UInt8) :
    searchCurDir s name = lookup s.curDir.listing name := by
  unfold searchCurDir lookup Dentry.find Dentry.listing
  rw [List.find?_map, Option.map_map]
  change _ = Option.getD (Option.map _
    ((List.range s.curDir.count).find? fun i => command name (s.curDir.entry i).cstr)) (-1)
  cases (List.range s.curDir.count).find? fun i => command name (s.curDir.entry i).cstr with
  | none => rfl
  | some i => rfl

/-- Without an entry, the other names are found as before. -/
lemma lookup_eraseIdx {l : List (List UInt8 × ℤ)} {k : ℕ} {e : List UInt8 × ℤ} (h : l[k]? = some e)
    {other : List UInt8} (hother : other ≠ e.1) : lookup (l.eraseIdx k) other = lookup l other := by
  obtain ⟨hk, he⟩ := List.getElem?_eq_some_iff.mp h
  have hskip : (e :: l.drop (k + 1)).find? (fun e => command other e.1) =
      (l.drop (k + 1)).find? fun e => command other e.1 :=
    List.find?_cons_of_neg fun heq => hother (command_iff.mp heq)
  unfold lookup
  rw [List.eraseIdx_eq_take_drop_succ]
  conv_rhs => rw [← List.take_append_drop k l, List.drop_eq_getElem_cons hk, he]
  rw [List.find?_append, List.find?_append, hskip]

/-! ## `rm` and `rmdir` -/

lemma freeBlock_curDir (s : FS) (b : ℤ) : (freeBlock s b).curDir = s.curDir := by
  unfold freeBlock
  split_ifs <;> rfl

lemma foldl_freeBlock_curDir (bs : List ℤ) (s : FS) : (bs.foldl freeBlock s).curDir = s.curDir := by
  induction bs generalizing s with
  | nil => rfl
  | cons b bs ih => exact (ih (freeBlock s b)).trans (freeBlock_curDir s b)

lemma freeInode_curDir (s : FS) (i : ℤ) : (freeInode s i).curDir = s.curDir := by
  unfold freeInode
  split_ifs <;> rfl

lemma readDiskBlock_curDir (s : FS) (b : ℤ) (buf : Block) :
    (readDiskBlock s b buf).1.curDir = s.curDir := by
  unfold readDiskBlock
  split_ifs <;> rfl

lemma freeFile_curDir (junk : Junk) (s : FS) (i : ℤ) (n : Inode) :
    (freeFile junk s i n).curDir = s.curDir := by
  unfold freeFile
  dsimp only
  rw [freeInode_curDir]
  split_ifs
  · rw [freeBlock_curDir, foldl_freeBlock_curDir, readDiskBlock_curDir, foldl_freeBlock_curDir]
  · rw [foldl_freeBlock_curDir]

/-- A file or a directory that is removed leaves the directory, whatever else happens. -/
lemma fileRemove_curDir {junk : Junk} {name : List UInt8} {s s' : FS}
    (h : fileRemove junk name s = (0, s')) : s'.curDir = s.curDir.remove name := by
  unfold fileRemove at h
  dsimp only at h
  split_ifs at h
  all_goals cases h
  · dsimp only
    rw [freeFile_curDir]
    rfl
  · rfl

lemma dirRemove_curDir {junk : Junk} {name : List UInt8} {s s' : FS}
    (h : dirRemove junk name s = (0, s')) : s'.curDir = s.curDir.remove name := by
  unfold dirRemove at h
  dsimp only at h
  split_ifs at h
  all_goals cases h
  · dsimp only
    rw [freeInode_curDir, freeBlock_curDir]
    unfold writeInode
    dsimp only
    rw [readDiskBlock_curDir]
  · dsimp only
    unfold writeInode
    dsimp only
    rw [readDiskBlock_curDir]

/-- The entry `k`, which has that name, is gone, and every other name stands for what it did. -/
def RemovedExactly (s : FS) (name : List UInt8) (k : ℕ) (s' : FS) : Prop :=
  s'.curDir.listing = s.curDir.listing.eraseIdx k ∧
    ∀ other, other ≠ name → searchCurDir s' other = searchCurDir s other

/-- `rm` and `rmdir` remove exactly the entry that was named if every name that moves down finds a
NUL behind it, and only then. -/
theorem remove_exactly_iff {s s' : FS} (hfits : s.curDir.Fits)
    (hnames : ∀ j < s.curDir.count, (s.curDir.entry j).cstr.length ≤ 15) {name : List UInt8} {k : ℕ}
    (hfind : s.curDir.find name = some k) {junk : Junk}
    (hret : fileRemove junk name s = (0, s') ∨ dirRemove junk name s = (0, s')) :
    RemovedExactly s name k s' ↔ s.curDir.ShiftsClean k := by
  have hcurDir : s'.curDir = s.curDir.remove name := by
    rcases hret with hret | hret
    · exact fileRemove_curDir hret
    · exact dirRemove_curDir hret
  obtain ⟨hk, hname, -⟩ := Dentry.find_some hfind
  have hiff := Dentry.remove_listing_iff hfits hfind hnames
  rw [← hcurDir] at hiff
  constructor
  · exact fun h => hiff.mp h.1
  · intro hclean
    have hlisting := hiff.mpr hclean
    refine ⟨hlisting, fun other hother => ?_⟩
    rw [searchCurDir_eq, searchCurDir_eq, hlisting]
    apply lookup_eraseIdx (Dentry.getElem?_listing hk)
    rw [← command_iff.mp hname]
    exact hother

lemma eq_of_fst {r : ℤ × FS} {ret : ℤ} (h : r.1 = ret) : r = (ret, r.2) := by rw [← h]

/-- Two files, the second with the shorter name. -/
def twoFiles : FS :=
  runCommands [(Junk.zero, ⟨str "create", Word.ab, Word.one, 2⟩),
    (Junk.zero, ⟨str "create", Word.a, Word.one, 2⟩)] mounted

/-- The last file is removed. -/
theorem remove_exactly_iff_last :
    RemovedExactly twoFiles (str "a") 2 (fileRemove Junk.zero (str "a") twoFiles).2 ↔
      twoFiles.curDir.ShiftsClean 2 := by
  have hfits : twoFiles.curDir.Fits := by
    unfold Dentry.Fits
    decide +kernel
  have hnames : ∀ j < twoFiles.curDir.count, (twoFiles.curDir.entry j).cstr.length ≤ 15 := by
    decide +kernel
  have hfind : twoFiles.curDir.find (str "a") = some 2 := by decide +kernel
  have hret : (fileRemove Junk.zero (str "a") twoFiles).1 = 0 := by decide +kernel
  exact remove_exactly_iff hfits hnames hfind (Or.inl (eq_of_fst hret))

/-- When the first is removed, the name that moves into its place becomes `ab` -/
theorem remove_exactly_stale :
    twoFiles.curDir.Fits ∧
      (∀ j < twoFiles.curDir.count, (twoFiles.curDir.entry j).cstr.length ≤ 15) ∧
      twoFiles.curDir.find (str "ab") = some 1 ∧
      (fileRemove Junk.zero (str "ab") twoFiles).1 = 0 ∧
      ¬ RemovedExactly twoFiles (str "ab") 1 (fileRemove Junk.zero (str "ab") twoFiles).2 := by
  refine ⟨by unfold Dentry.Fits; decide +kernel, by decide +kernel, by decide +kernel,
    by decide +kernel, ?_⟩
  rintro ⟨hlisting, -⟩
  revert hlisting
  decide +kernel

end OsProjects.FileSys
