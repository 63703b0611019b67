import OsProjects.FileSys.Machine

/-!
# The entries of a directory

Adding an entry and removing one, seen as changes of the list of inode numbers.
Names matter only for the search.
-/

namespace OsProjects.FileSys

/-- The C string at the front of some bytes. -/
lemma takeWhile_eq {name l : List UInt8} (hname : 0 ∉ name) (htake : l.take name.length = name)
    (hnul : l[name.length]? = some 0) : l.takeWhile (· ≠ 0) = name := by
  obtain ⟨hlt, hget⟩ := List.getElem?_eq_some_iff.mp hnul
  conv_lhs => rw [← List.take_append_drop name.length l, List.drop_eq_getElem_cons hlt, htake, hget]
  rw [List.takeWhile_append_of_pos]
  · simp
  · intro c hc
    rw [decide_eq_true_eq]
    rintro rfl
    exact hname hc

lemma command_iff {a b : List UInt8} : command a b = true ↔ a = b := by
  unfold command
  rw [Bool.and_eq_true, beq_iff_eq, beq_iff_eq]
  constructor
  · intro ⟨hlength, htake⟩
    rwa [List.take_length, hlength, List.take_length] at htake
  · rintro rfl
    exact ⟨rfl, rfl⟩

namespace Dentry

/-- The number of entries is one that the array can hold. -/
def Fits (d : Dentry) : Prop := 0 ≤ d.numEntry.toInt ∧ d.numEntry.toInt ≤ 21

def inodes (d : Dentry) : List ℤ := (List.range d.count).map fun i => (d.entry i).inode.toInt

variable {d : Dentry} {name : List UInt8} {i j k : ℕ}

lemma Fits.count_cast (h : d.Fits) : (d.count : ℤ) = d.numEntry.toInt := Int.toNat_of_nonneg h.1

lemma Fits.count_le (h : d.Fits) : d.count ≤ 21 := by
  have hcast := h.count_cast
  have hle := h.2
  omega

lemma length_inodes (d : Dentry) : d.inodes.length = d.count := by
  rw [inodes, List.length_map, List.length_range]

lemma mem_inodes {d : Dentry} {z : ℤ} :
    z ∈ d.inodes ↔ ∃ k < d.count, (d.entry k).inode.toInt = z := by
  unfold inodes
  rw [List.mem_map]
  apply exists_congr
  intro k
  rw [List.mem_range]

lemma getElem?_inodes (h : k < d.count) : d.inodes[k]? = some (d.entry k).inode.toInt := by
  rw [inodes, List.getElem?_map, List.getElem?_range h]
  rfl

lemma entry_setEntry (d : Dentry) (e : DirectoryEntry) (hi : i < maxDirEntry) (j : ℕ) :
    (d.setEntry i e).entry j = if j = i then e else d.entry j := by
  unfold entry setEntry
  by_cases hj : j < maxDirEntry
  · rw [dif_pos hj, dif_pos hj]
  · rw [dif_neg hj, dif_neg hj, if_neg (by omega)]

/-! ## Adding an entry -/

lemma add_numEntry (h : d.numEntry.toInt ≤ 21) (z : ℤ) :
    (d.add name z).numEntry.toInt = d.numEntry.toInt + 1 :=
  CInt.toInt_add_one (by omega)

lemma add_count (h : d.Fits) (z : ℤ) : (d.add name z).count = d.count + 1 := by
  have h0 := h.1
  rw [count, add_numEntry h.2, count]
  omega

lemma add_fits (h : d.Fits) (hlt : d.count < 21) (z : ℤ) : (d.add name z).Fits := by
  have hcast := h.count_cast
  unfold Fits
  rw [add_numEntry h.2]
  omega

lemma add_entry (h : d.count < 21) (z : ℤ) (hj : j ≠ d.count) :
    (d.add name z).entry j = d.entry j := by
  change (d.setEntry d.count _).entry j = d.entry j
  rw [entry_setEntry _ _ h, if_neg hj]

lemma add_entry_last (h : d.count < 21) (z : ℤ) :
    (d.add name z).entry d.count =
      { name := fun k => if k.val = name.length then 0 else strncpy (d.entry d.count).name name k
        inode := Int32.ofInt z } := by
  change (d.setEntry d.count _).entry d.count = _
  rw [entry_setEntry _ _ h, if_pos rfl]

lemma add_inodes (h : d.Fits) (hlt : d.count < 21) {z : Int32} :
    (d.add name z.toInt).inodes = d.inodes ++ [z.toInt] := by
  unfold inodes
  rw [add_count h, List.range_succ, List.map_append, List.map_singleton, add_entry_last hlt,
    Int32.ofInt_toInt]
  congr 1
  apply List.map_congr_left
  intro k hk
  rw [List.mem_range] at hk
  rw [add_entry hlt _ (by omega)]

/-- A name without NUL that leaves room for one is read back as it was given. -/
lemma add_cstr (h : d.count < 21) (z : ℤ) (hname : 0 ∉ name) (hlength : name.length < 20) :
    ((d.add name z).entry d.count).cstr = name := by
  rw [add_entry_last h]
  apply takeWhile_eq hname
  · rw [List.take_append_of_le_length (by rw [List.length_ofFn]; omega)]
    apply List.ext_getElem
    · rw [List.length_take, List.length_ofFn]
      omega
    · intro k hk hk'
      rw [List.getElem_take, List.getElem_ofFn]
      simp only
      rw [if_neg (by omega), strncpy, List.getD_eq_getElem _ _ hk']
  · rw [List.getElem?_append_left (by rwa [List.length_ofFn]), List.getElem?_ofFn, dif_pos hlength]
    simp

/-! ## Removing an entry -/

lemma shift_numEntry (n : ℕ) : (d.shift i n).numEntry = d.numEntry := by
  induction n generalizing d i with
  | zero => rfl
  | succ n ih => exact ih

lemma shift_entry_of_lt {n : ℕ} (hn : i + n ≤ maxDirEntry) (hj : j < i) :
    (d.shift i n).entry j = d.entry j := by
  induction n generalizing d i with
  | zero => rfl
  | succ n ih =>
    unfold shift
    rw [ih (by omega) (by omega), entry_setEntry _ _ (by omega), if_neg (by omega)]

lemma shift_inode {n : ℕ} (hn : i + n ≤ maxDirEntry) (j : ℕ) :
    ((d.shift i n).entry j).inode =
      (d.entry (if i ≤ j ∧ j < i + n then j + 1 else j)).inode := by
  induction n generalizing d i with
  | zero => rw [if_neg (by omega), shift]
  | succ n ih =>
    unfold shift
    rw [ih (by omega)]
    by_cases hj : j = i
    · rw [if_neg (by omega), hj, entry_setEntry _ _ (by omega), if_pos rfl, if_pos (by omega)]
    · by_cases hmoved : i + 1 ≤ j ∧ j < i + 1 + n
      · rw [if_pos hmoved, if_pos (by omega), entry_setEntry _ _ (by omega), if_neg (by omega)]
      · rw [if_neg hmoved, if_neg (by omega), entry_setEntry _ _ (by omega), if_neg hj]

lemma find_some (h : d.find name = some k) :
    k < d.count ∧ command name (d.entry k).cstr = true ∧
      ∀ j < k, command name (d.entry j).cstr = false := by
  rw [find, List.find?_range_eq_some, List.mem_range] at h
  simpa [and_left_comm, Bool.not_eq_true'] using h

lemma find_none (h : d.find name = none) (hk : k < d.count) :
    command name (d.entry k).cstr = false := by
  rw [find, List.find?_range_eq_none] at h
  simpa using h k hk

lemma remove_eq (hfind : d.find name = some k) :
    d.remove name = { d.shift k (d.count - 1 - k) with numEntry := d.numEntry - 1 } := by
  unfold remove
  rw [hfind]
  simp only [Option.getD_some, shift_numEntry]

/-- A name that is new is found in its new entry. -/
lemma find_add (h : d.Fits) (hlt : d.count < 21) (hfind : d.find name = none) (hname : 0 ∉ name)
    (hlength : name.length < 20) (z : ℤ) : (d.add name z).find name = some d.count := by
  unfold find
  rw [List.find?_range_eq_some, List.mem_range, add_count h, add_cstr hlt z hname hlength]
  refine ⟨command_iff.mpr rfl, Nat.lt_succ_self _, fun j hj => ?_⟩
  rw [add_entry hlt _ (by omega), find_none hfind hj]
  rfl

section Remove
variable (hfits : d.Fits) (hfind : d.find name = some k)
include hfits hfind

lemma remove_numEntry : (d.remove name).numEntry.toInt = d.numEntry.toInt - 1 := by
  rw [remove_eq hfind]
  apply CInt.toInt_sub_one
  have h0 := hfits.1
  omega

lemma remove_count : (d.remove name).count = d.count - 1 := by
  have hcast := hfits.count_cast
  rw [count, remove_numEntry hfits hfind]
  omega

lemma remove_fits : (d.remove name).Fits := by
  have hlt := (find_some hfind).1
  have hcast := hfits.count_cast
  have hle := hfits.2
  unfold Fits
  rw [remove_numEntry hfits hfind]
  omega

lemma remove_entry (hj : j < k) : (d.remove name).entry j = d.entry j := by
  have hlt := (find_some hfind).1
  have hle := hfits.count_le
  rw [remove_eq hfind]
  exact shift_entry_of_lt (by simp only [maxDirEntry]; omega) hj

lemma remove_inodes : (d.remove name).inodes = d.inodes.eraseIdx k := by
  have hlt := (find_some hfind).1
  have hle := hfits.count_le
  have hinode : ∀ j < d.count - 1, ((d.remove name).entry j).inode =
      (d.entry (if k ≤ j then j + 1 else j)).inode := by
    intro j hj
    rw [remove_eq hfind]
    refine (shift_inode (by simp only [maxDirEntry]; omega) j).trans ?_
    congr 2
    by_cases hkj : k ≤ j
    · rw [if_pos (by omega), if_pos hkj]
    · rw [if_neg (by omega), if_neg hkj]
  apply List.ext_getElem
  · rw [List.length_eraseIdx_of_lt (by rwa [length_inodes]), length_inodes, length_inodes,
      remove_count hfits hfind]
  · intro j hj hj'
    rw [length_inodes, remove_count hfits hfind] at hj
    rw [List.getElem_eraseIdx]
    simp only [inodes, List.getElem_map, List.getElem_range, hinode j hj]
    by_cases hjk : j < k
    · rw [dif_pos hjk, if_neg (by omega)]
    · rw [dif_neg hjk, if_pos (by omega)]

end Remove

end Dentry

/-! ## Searching -/

/-- The search finds an entry or gives `-1`. -/
lemma searchCurDir_cases (s : FS) (name : List UInt8) :
    (s.curDir.find name = none ∧ searchCurDir s name = -1) ∨
      ∃ k, s.curDir.find name = some k ∧
        searchCurDir s name = (s.curDir.entry k).inode.toInt := by
  unfold searchCurDir
  cases s.curDir.find name with
  | none => exact Or.inl ⟨rfl, rfl⟩
  | some k => exact Or.inr ⟨k, rfl, rfl⟩

lemma searchCurDir_of_find {s : FS} {name : List UInt8} {k : ℕ} {i : ℤ}
    (hfind : s.curDir.find name = some k) (hentry : (s.curDir.entry k).inode.toInt = i) :
    searchCurDir s name = i := by
  unfold searchCurDir
  rw [hfind]
  exact hentry

lemma full_iff {d : Dentry} (h : d.Fits) : d.full = true ↔ d.count = 21 := by
  have hcast := h.count_cast
  have h0 := h.1
  have hle := h.2
  unfold Dentry.full
  rw [decide_eq_true_eq, CInt.toInt_add_one (by omega)]
  simp only [maxDirEntry]
  omega

end OsProjects.FileSys
