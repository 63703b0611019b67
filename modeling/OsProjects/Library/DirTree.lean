import OsProjects.Library.Ownership

/-!
# Trees of directories with links

Every directory begins with an entry for itself and, the root apart, one for its parent.
The entries behind these come and go: a new directory is entered in its parent, and an
entry may be made for whatever the directory already names.  So an entry leads to the
directory itself, to its parent, to a child or to something that is no directory.
-/

namespace OsProjects.DirTree
open Ownership

variable {ι : Type} [DecidableEq ι]

/-- The position of the first entry that may come and go. -/
def first (root d : ι) : ℕ := if d = root then 1 else 2

lemma first_pos {root d : ι} : 0 < first root d := by
  unfold first
  split_ifs <;> decide

lemma lt_first_cases {root d : ι} {k : ℕ} (h : k < first root d) : k = 0 ∨ k = 1 ∧ d ≠ root := by
  unfold first at h
  split_ifs at h with hroot
  · exact Or.inl (by omega)
  · have hcases : k = 0 ∨ k = 1 := by omega
    exact hcases.imp_right fun hone => ⟨hone, hroot⟩

/-- The entries that may come and go. -/
def extra (root : ι) (names : ι → List ι) (d : ι) : List ι := (names d).drop (first root d)

/-- `p` is the parent of `d`. -/
def Parent (root : ι) (names : ι → List ι) (d p : ι) : Prop := d ≠ root ∧ (names d)[1]? = some p

structure WellFormed (root : ι) (dirs : Finset ι) (names : ι → List ι) : Prop where
  root_mem : root ∈ dirs
  self : ∀ d ∈ dirs, (names d)[0]? = some d
  parent : ∀ d ∈ dirs, d ≠ root →
    ∃ p ∈ dirs, p ≠ d ∧ Parent root names d p ∧ d ∈ extra root names p
  edge : ∀ d ∈ dirs, ∀ t ∈ extra root names d, t ∈ dirs →
    t = d ∨ Parent root names d t ∨ Parent root names t d

variable {root : ι} {dirs : Finset ι} {names names' : ι → List ι} {c d i t p : ι} {k : ℕ}

omit [DecidableEq ι] in
lemma Parent.unique (h : Parent root names d p) (h' : Parent root names d t) : p = t :=
  Option.some.inj (h.2.symm.trans h'.2)

lemma extra_congr (h : names' d = names d) : extra root names' d = extra root names d := by
  unfold extra
  rw [h]

lemma extra_pair (hroot : d ≠ root) (hpair : names d = [t, p]) : extra root names d = [] := by
  unfold extra first
  rw [hpair, if_neg hroot]
  rfl

lemma references_extra_le (j : ι) :
    references dirs (extra root names) j ≤ references dirs names j := by
  apply Finset.sum_le_sum
  intro d _
  exact (List.drop_sublist _ _).count_le j

omit [DecidableEq ι] in
lemma Parent.congr (h : names' d = names d) : Parent root names' d p ↔ Parent root names d p := by
  unfold Parent
  rw [h]

lemma mem_extra_of_le (hk : first root d ≤ k) (ht : (names d)[k]? = some t) :
    t ∈ extra root names d := by
  apply List.mem_iff_getElem?.mpr
  refine ⟨k - first root d, ?_⟩
  rw [extra, List.getElem?_drop, Nat.add_sub_cancel' hk, ht]

namespace WellFormed

lemma congr (h : WellFormed root dirs names) (hnames : ∀ d ∈ dirs, names' d = names d) :
    WellFormed root dirs names' where
  root_mem := h.root_mem
  self := by
    intro d hd
    rw [hnames d hd]
    exact h.self d hd
  parent := by
    intro d hd hroot
    obtain ⟨p, hp, hpd, hup, hdown⟩ := h.parent d hd hroot
    refine ⟨p, hp, hpd, (Parent.congr (hnames d hd)).mpr hup, ?_⟩
    rwa [extra_congr (hnames p hp)]
  edge := by
    intro d hd t ht htd
    rw [extra_congr (hnames d hd)] at ht
    rw [Parent.congr (hnames d hd), Parent.congr (hnames t htd)]
    exact h.edge d hd t ht htd

/-- The entries for the directory itself and its parent are there. -/
lemma first_le (h : WellFormed root dirs names) (hd : d ∈ dirs) :
    first root d ≤ (names d).length := by
  unfold first
  split_ifs with hroot
  · have hself := (List.getElem?_eq_some_iff.mp (h.self d hd)).1
    omega
  · obtain ⟨p, -, -, hp, -⟩ := h.parent d hd hroot
    have hparent := (List.getElem?_eq_some_iff.mp hp.2).1
    omega

/-- What an entry leads to. -/
lemma mem_names (h : WellFormed root dirs names) (hd : d ∈ dirs) (ht : t ∈ names d) :
    t = d ∨ Parent root names d t ∨ t ∈ extra root names d := by
  obtain ⟨j, hj⟩ := List.getElem?_of_mem ht
  by_cases hfirst : first root d ≤ j
  · exact Or.inr (Or.inr (mem_extra_of_le hfirst hj))
  · rcases lt_first_cases (not_le.mp hfirst) with rfl | ⟨rfl, hroot⟩
    · exact Or.inl (Option.some.inj (hj.symm.trans (h.self d hd)))
    · exact Or.inr (Or.inl ⟨hroot, hj⟩)

/-- An entry to a directory leads to the directory itself, its parent or a child. -/
lemma edge_of_mem (h : WellFormed root dirs names) (hd : d ∈ dirs) (ht : t ∈ names d)
    (htd : t ∈ dirs) : t = d ∨ Parent root names d t ∨ Parent root names t d := by
  rcases h.mem_names hd ht with heq | hp | hextra
  · exact Or.inl heq
  · exact Or.inr (Or.inl hp)
  · exact h.edge d hd t hextra htd

/-- A directory with nothing but its first two entries has no child and no entry for itself. -/
lemma parent_of_mem (h : WellFormed root dirs names) (hi : i ∈ dirs)
    (hempty : extra root names i = []) (hd : d ∈ dirs) (hid : i ∈ extra root names d) :
    Parent root names i d := by
  rcases h.edge d hd i hid hi with rfl | hp | hp
  · rw [hempty] at hid
    exact absurd hid List.not_mem_nil
  · obtain ⟨q, -, -, hq, hmem⟩ := h.parent d hd hp.1
    obtain rfl := hp.unique hq
    rw [hempty] at hmem
    exact absurd hmem List.not_mem_nil
  · exact hp

/-- A directory that names itself is named in its parent as well. -/
lemma two_le_references (h : WellFormed root dirs names) (hc : c ∈ dirs) (hroot : c ≠ root)
    (hself : c ∈ extra root names c) : 2 ≤ references dirs (extra root names) c := by
  obtain ⟨p, hp, hpc, -, hmem⟩ := h.parent c hc hroot
  have hone := List.count_pos_iff.mpr hself
  have htwo := List.count_pos_iff.mpr hmem
  have hsum := Finset.add_sum_erase dirs (fun d => (extra root names d).count c) hc
  have hle : (extra root names p).count c ≤ ∑ d ∈ dirs.erase c, (extra root names d).count c :=
    Finset.single_le_sum (fun d _ => Nat.zero_le ((extra root names d).count c))
      (Finset.mem_erase.mpr ⟨hpc, hp⟩)
  unfold references
  omega

/-! ## More entries -/

section Append
variable {more : List ι} (h : WellFormed root dirs names) (hc : c ∈ dirs)
  (hnames : names' c = names c ++ more) (hrest : ∀ d ∈ dirs, d ≠ c → names' d = names d)
include h hc hnames

lemma extra_append : extra root names' c = extra root names c ++ more := by
  unfold extra
  rw [hnames, List.drop_append_of_le_length (h.first_le hc)]

include hrest

omit h hc in
/-- The entries that were there keep their places. -/
lemma getElem?_append {j : ℕ} (hd : d ∈ dirs) (hj : (names d)[j]? = some t) :
    (names' d)[j]? = some t := by
  by_cases hdc : d = c
  · subst hdc
    rw [hnames, List.getElem?_append_left (List.getElem?_eq_some_iff.mp hj).1, hj]
  · rw [hrest d hd hdc, hj]

lemma mem_extra_append (hd : d ∈ dirs) (ht : t ∈ extra root names d) :
    t ∈ extra root names' d := by
  by_cases hdc : d = c
  · subst hdc
    rw [h.extra_append hd hnames]
    exact List.mem_append_left _ ht
  · rwa [extra_congr (hrest d hd hdc)]

omit h hc in
lemma edge_append (hd : d ∈ dirs) (ht : t ∈ dirs)
    (he : t = d ∨ Parent root names d t ∨ Parent root names t d) :
    t = d ∨ Parent root names' d t ∨ Parent root names' t d :=
  he.imp_right (Or.imp (fun hp => ⟨hp.1, getElem?_append hnames hrest hd hp.2⟩)
    fun hp => ⟨hp.1, getElem?_append hnames hrest ht hp.2⟩)

/-- What a directory has for its parent it keeps. -/
lemma parent_append (hd : d ∈ dirs) (hroot : d ≠ root) :
    ∃ p ∈ dirs, p ≠ d ∧ Parent root names' d p ∧ d ∈ extra root names' p := by
  obtain ⟨p, hp, hpd, hup, hdown⟩ := h.parent d hd hroot
  refine ⟨p, hp, hpd, ⟨hroot, getElem?_append hnames hrest hd hup.2⟩, ?_⟩
  exact h.mem_extra_append hc hnames hrest hp hdown

end Append

/-- One entry more for `t`. -/
lemma references_append (h : WellFormed root dirs names) (hc : c ∈ dirs)
    (hnames : names' c = names c ++ [t]) (hrest : ∀ d ∈ dirs, d ≠ c → names' d = names d) (j : ι) :
    references dirs (extra root names') j =
      references dirs (extra root names) j + if j = t then 1 else 0 := by
  have hchange : references dirs (extra root names') j + (extra root names c).count j =
      references dirs (extra root names) j + (extra root names' c).count j :=
    references_change hc (fun d hd hdc => extra_congr (hrest d hd hdc)) j
  rw [h.extra_append hc hnames, List.count_append, List.count_singleton] at hchange
  simp only [beq_iff_eq, eq_comm (a := t)] at hchange
  omega

/-- An entry for something that the directory already names or that is no directory. -/
lemma link (h : WellFormed root dirs names) (hc : c ∈ dirs) (ht : t ∈ dirs → t ∈ names c)
    (hnames : names' c = names c ++ [t]) (hrest : ∀ d ∈ dirs, d ≠ c → names' d = names d) :
    WellFormed root dirs names' where
  root_mem := h.root_mem
  self := fun d hd => getElem?_append hnames hrest hd (h.self d hd)
  parent := fun d hd hroot => h.parent_append hc hnames hrest hd hroot
  edge := by
    intro d hd j hj hjd
    apply edge_append hnames hrest hd hjd
    by_cases hdc : d = c
    · subst hdc
      rw [h.extra_append hd hnames, List.mem_append, List.mem_singleton] at hj
      rcases hj with hj | rfl
      · exact h.edge d hd j hj hjd
      · exact h.edge_of_mem hd (ht hjd) hjd
    · rw [extra_congr (hrest d hd hdc)] at hj
      exact h.edge d hd j hj hjd

/-- A new directory adds its own entry, and no other. -/
lemma references_make (h : WellFormed root dirs names) (hc : c ∈ dirs) (hi : i ∉ dirs)
    (hnew : names' i = [i, c]) (hnames : names' c = names c ++ [i])
    (hrest : ∀ d ∈ dirs, d ≠ c → names' d = names d) (j : ι) :
    references (insert i dirs) (extra root names') j =
      references dirs (extra root names) j + if j = i then 1 else 0 := by
  have hir : i ≠ root := fun hir => hi (hir ▸ h.root_mem)
  rw [← h.references_append hc hnames hrest, references, Finset.sum_insert hi,
    extra_pair hir hnew, List.count_nil, Nat.zero_add]
  rfl

/-- A new directory, entered in its parent. -/
lemma make (h : WellFormed root dirs names) (hc : c ∈ dirs) (hi : i ∉ dirs)
    (hfresh : ∀ d ∈ dirs, i ∉ names d) (hnew : names' i = [i, c])
    (hnames : names' c = names c ++ [i]) (hrest : ∀ d ∈ dirs, d ≠ c → names' d = names d) :
    WellFormed root (insert i dirs) names' where
  root_mem := Finset.mem_insert_of_mem h.root_mem
  self := by
    intro d hd
    rcases Finset.mem_insert.mp hd with rfl | hd
    · rw [hnew]
      rfl
    · exact getElem?_append hnames hrest hd (h.self d hd)
  parent := by
    intro d hd hroot
    rcases Finset.mem_insert.mp hd with rfl | hd
    · refine ⟨c, Finset.mem_insert_of_mem hc, fun hcd => hi (hcd ▸ hc), ⟨hroot, ?_⟩, ?_⟩
      · rw [hnew]
        rfl
      · rw [h.extra_append hc hnames]
        exact List.mem_append_right _ (List.mem_singleton_self d)
    · obtain ⟨p, hp, hrest⟩ := h.parent_append hc hnames hrest hd hroot
      exact ⟨p, Finset.mem_insert_of_mem hp, hrest⟩
  edge := by
    have hir : i ≠ root := fun hir => hi (hir ▸ h.root_mem)
    have hnone : extra root names' i = [] := extra_pair hir hnew
    intro d hd j hj hjd
    rcases Finset.mem_insert.mp hd with hdi | hd
    · rw [hdi, hnone] at hj
      exact absurd hj List.not_mem_nil
    · -- the new directory is named nowhere but in its parent
      have hold : j ∈ extra root names d →
          j = d ∨ Parent root names' d j ∨ Parent root names' j d := by
        intro hj
        rcases Finset.mem_insert.mp hjd with hji | hjd
        · exact absurd (List.mem_of_mem_drop hj) (hji ▸ hfresh d hd)
        · exact edge_append hnames hrest hd hjd (h.edge d hd j hj hjd)
      by_cases hdc : d = c
      · subst hdc
        rw [h.extra_append hd hnames, List.mem_append, List.mem_singleton] at hj
        rcases hj with hj | hji
        · exact hold hj
        · refine Or.inr (Or.inr ⟨hji ▸ hir, ?_⟩)
          rw [hji, hnew]
          rfl
      · rw [extra_congr (hrest d hd hdc)] at hj
        exact hold hj

/-! ## Fewer entries -/

section Erase
variable (h : WellFormed root dirs names) (hc : c ∈ dirs) (hk : first root c ≤ k)
  (ht : (names c)[k]? = some t) (hnames : names' c = (names c).eraseIdx k)
  (hrest : ∀ d ∈ dirs, d ≠ c → names' d = names d)
include hk hnames

lemma extra_erase : extra root names' c = (extra root names c).eraseIdx (k - first root c) := by
  unfold extra
  rw [hnames]
  ext1 j
  rw [List.getElem?_drop, List.getElem?_eraseIdx, List.getElem?_eraseIdx, List.getElem?_drop,
    List.getElem?_drop]
  by_cases hj : j < k - first root c
  · rw [if_pos (by omega), if_pos hj]
  · rw [if_neg (by omega), if_neg hj, Nat.add_assoc]

include ht

/-- One entry for `t` less. -/
lemma count_extra_erase (j : ι) :
    (extra root names' c).count j + (if j = t then 1 else 0) = (extra root names c).count j := by
  have hget : (extra root names c)[k - first root c]? = some t := by
    rw [extra, List.getElem?_drop, Nat.add_sub_cancel' hk, ht]
  rw [extra_erase hk hnames]
  exact count_eraseIdx hget j

/-- The entries for something else stay. -/
lemma mem_extra_erase (hj : d ∈ extra root names c) (hne : d ≠ t) : d ∈ extra root names' c := by
  have hcount := count_extra_erase hk ht hnames d
  rw [if_neg hne, Nat.add_zero] at hcount
  rw [← List.count_pos_iff, hcount, List.count_pos_iff]
  exact hj

include h hc in
/-- Where a directory with nothing else in it is named twice, one entry in its parent is left. -/
lemma mem_extra_of_two_le (htd : t ∈ dirs) (hempty : extra root names t = [])
    (hup : Parent root names t c) (htwo : 2 ≤ references dirs (extra root names) t) :
    t ∈ extra root names' c := by
  have honly : references dirs (extra root names) t = (extra root names c).count t := by
    apply Finset.sum_eq_single_of_mem c hc
    intro d hd hdc
    apply List.count_eq_zero_of_not_mem
    exact fun hmem => hdc ((h.parent_of_mem htd hempty hd hmem).unique hup)
  have hcount := count_extra_erase hk ht hnames t
  rw [if_pos rfl] at hcount
  apply List.count_pos_iff.mp
  omega

include hrest

include hc in
/-- One entry less for `t`. -/
lemma references_erase (j : ι) :
    references dirs (extra root names') j + (if j = t then 1 else 0) =
      references dirs (extra root names) j := by
  have hchange : references dirs (extra root names') j + (extra root names c).count j =
      references dirs (extra root names) j + (extra root names' c).count j :=
    references_change hc (fun d hd hdc => extra_congr (hrest d hd hdc)) j
  have hcount := count_extra_erase hk ht hnames j
  omega

omit ht

lemma getElem?_erase (hd : d ∈ dirs) {j : ℕ} (hj : j < first root d) :
    (names' d)[j]? = (names d)[j]? := by
  by_cases hdc : d = c
  · subst hdc
    rw [hnames, List.getElem?_eraseIdx_of_lt (by omega)]
  · rw [hrest d hd hdc]

lemma parent_erase (hd : d ∈ dirs) : Parent root names' d p ↔ Parent root names d p := by
  unfold Parent
  by_cases hroot : d = root
  · simp only [hroot, ne_eq, not_true_eq_false, false_and]
  · rw [getElem?_erase hk hnames hrest hd (by rw [first, if_neg hroot]; omega)]

lemma mem_of_mem_extra_erase (hd : d ∈ dirs) (hj : p ∈ extra root names' d) :
    p ∈ extra root names d := by
  by_cases hdc : d = c
  · subst hdc
    rw [extra_erase hk hnames] at hj
    exact List.mem_of_mem_eraseIdx hj
  · rwa [extra_congr (hrest d hd hdc)] at hj

include h

lemma self_erase (hd : d ∈ dirs) : (names' d)[0]? = some d := by
  rw [getElem?_erase hk hnames hrest hd first_pos, h.self d hd]

lemma edge_erase (hd : d ∈ dirs) (hj : p ∈ extra root names' d) (hp : p ∈ dirs) :
    p = d ∨ Parent root names' d p ∨ Parent root names' p d := by
  rw [parent_erase hk hnames hrest hd, parent_erase hk hnames hrest hp]
  exact h.edge d hd p (mem_of_mem_extra_erase hk hnames hrest hd hj) hp

include hc ht

/-- An entry goes, which is not the last one for a directory in its parent. -/
lemma unlink (hleft : t ∈ dirs → Parent root names t c → t ∈ extra root names' c) :
    WellFormed root dirs names' where
  root_mem := h.root_mem
  self := fun d hd => h.self_erase hk hnames hrest hd
  parent := by
    intro d hd hroot
    obtain ⟨p, hp, hpd, hup, hdown⟩ := h.parent d hd hroot
    refine ⟨p, hp, hpd, (parent_erase hk hnames hrest hd).mpr hup, ?_⟩
    by_cases hpc : p = c
    · subst hpc
      by_cases hdt : d = t
      · subst hdt
        exact hleft hd hup
      · exact mem_extra_erase hk ht hnames hdown hdt
    · rwa [extra_congr (hrest p hp hpc)]
  edge := fun d hd j hj hjd => h.edge_erase hk hnames hrest hd hj hjd

/-- A directory goes that has nothing but its first two entries, with the entry for it. -/
lemma drop (htd : t ∈ dirs) (htr : t ≠ root) (hempty : extra root names t = []) :
    WellFormed root (dirs.erase t) names' where
  root_mem := Finset.mem_erase.mpr ⟨htr.symm, h.root_mem⟩
  self := fun d hd => h.self_erase hk hnames hrest (Finset.mem_of_mem_erase hd)
  parent := by
    intro d hd hroot
    obtain ⟨hdt, hd⟩ := Finset.mem_erase.mp hd
    obtain ⟨p, hp, hpd, hup, hdown⟩ := h.parent d hd hroot
    have hpt : p ≠ t := by
      rintro rfl
      rw [hempty] at hdown
      exact absurd hdown List.not_mem_nil
    refine ⟨p, Finset.mem_erase.mpr ⟨hpt, hp⟩, hpd, (parent_erase hk hnames hrest hd).mpr hup, ?_⟩
    by_cases hpc : p = c
    · subst hpc
      exact mem_extra_erase hk ht hnames hdown hdt
    · rwa [extra_congr (hrest p hp hpc)]
  edge := fun d hd j hj hjd =>
    h.edge_erase hk hnames hrest (Finset.mem_of_mem_erase hd) hj (Finset.mem_of_mem_erase hjd)

omit h in
/-- The directory that goes has no entries that count. -/
lemma references_drop (htd : t ∈ dirs) (hempty : extra root names t = []) (j : ι) :
    references (dirs.erase t) (extra root names') j + (if j = t then 1 else 0) =
      references dirs (extra root names) j := by
  have hnone : extra root names' t = [] := by
    apply List.eq_nil_iff_forall_not_mem.mpr
    intro p hp
    have hold := mem_of_mem_extra_erase hk hnames hrest htd hp
    rw [hempty] at hold
    exact List.not_mem_nil hold
  rw [← references_erase hc hk ht hnames hrest j, references, references,
    ← Finset.add_sum_erase dirs _ htd, hnone, List.count_nil, Nat.zero_add]

omit hk in
/-- What is no directory is named as often as before. -/
lemma references_drop_of_notMem (htd : t ∈ dirs) (htc : t ≠ c) (hempty : extra root names t = [])
    {j : ι} (hj : j ∉ dirs) : references (dirs.erase t) names' j = references dirs names j := by
  have hnone : j ∉ names' t := by
    rw [hrest t htd htc]
    intro hmem
    rcases h.mem_names htd hmem with rfl | hp | hextra
    · exact hj htd
    · obtain ⟨p, hpmem, -, hup, -⟩ := h.parent t htd hp.1
      exact hj (hup.unique hp ▸ hpmem)
    · rw [hempty] at hextra
      exact List.not_mem_nil hextra
  have hchange := references_change hc hrest j
  have hcount := count_eraseIdx ht j
  have hjt : j ≠ t := fun hjt => hj (hjt ▸ htd)
  rw [if_neg hjt, ← hnames] at hcount
  have hsplit := Finset.add_sum_erase dirs (fun d => (names' d).count j) htd
  rw [List.count_eq_zero_of_not_mem hnone] at hsplit
  unfold references at hchange ⊢
  omega

/-- If that was the last entry for it, nothing names it any more. -/
lemma notMem_of_drop (htd : t ∈ dirs) (htr : t ≠ root) (hempty : extra root names t = [])
    (hlast : references dirs (extra root names) t ≤ 1) {d : ι} (hd : d ∈ dirs.erase t) :
    t ∉ names' d := by
  have hdrop := h.drop hc hk ht hnames hrest htd htr hempty
  obtain ⟨hdt, hdd⟩ := Finset.mem_erase.mp hd
  have hcount := references_erase hc hk ht hnames hrest t
  rw [if_pos rfl] at hcount
  intro hmem
  rcases hdrop.mem_names hd hmem with heq | hp | hextra
  · exact hdt heq.symm
  · obtain ⟨p, hpmem, -, hup, -⟩ := hdrop.parent d hd hp.1
    exact (Finset.mem_erase.mp hpmem).1 (hup.unique hp)
  · exact notMem_of_references_eq_zero (by omega) hdd hextra

end Erase

end WellFormed

end OsProjects.DirTree
