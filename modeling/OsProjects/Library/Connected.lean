import OsProjects.Library.DirTree
import OsProjects.Library.Worklist

/-!
# Trees of directories without links

Where every directory lies below the root and is entered only once, in its parent, what
is found from the root on is a tree that holds all directories.
-/

namespace OsProjects.DirTree
open Ownership Worklist

variable {ι : Type} {root : ι} {dirs dirs' : Finset ι} {names names' : ι → List ι} {c d i t p : ι}

/-- From every directory the parents lead to the root. -/
def Connected (root : ι) (dirs : Finset ι) (names : ι → List ι) : Prop :=
  ∀ d ∈ dirs, Relation.ReflTransGen (fun p d => Parent root names d p) root d

variable [DecidableEq ι]

/-- Every directory is entered once, and the root never. -/
def Single (root : ι) (dirs : Finset ι) (names : ι → List ι) : Prop :=
  ∀ d ∈ dirs, references dirs (extra root names) d = if d = root then 0 else 1

omit [DecidableEq ι] in
/-- Directories that keep their parents stay below the root. -/
lemma Connected.of_parent (hc : Connected root dirs names) (hsub : dirs' ⊆ dirs)
    (hkeep : ∀ d ∈ dirs', ∀ p, Parent root names d p → p ∈ dirs' ∧ Parent root names' d p) :
    Connected root dirs' names' := by
  have hpath : ∀ d, Relation.ReflTransGen (fun p d => Parent root names d p) root d →
      d ∈ dirs' → Relation.ReflTransGen (fun p d => Parent root names' d p) root d := by
    intro d hpath
    induction hpath with
    | refl => exact fun _ => .refl
    | tail _ hp ih =>
      intro hd
      obtain ⟨hmem, hp'⟩ := hkeep _ hd _ hp
      exact (ih hmem).tail hp'
  exact fun d hd => hpath d (hc d (hsub hd)) hd

namespace WellFormed

/-- The parent of a directory is a directory, and enters it. -/
lemma parent_spec (h : WellFormed root dirs names) (hd : d ∈ dirs) (hp : Parent root names d p) :
    p ∈ dirs ∧ d ∈ extra root names p := by
  obtain ⟨q, hq, -, hup, hmem⟩ := h.parent d hd hp.1
  rw [← hup.unique hp]
  exact ⟨hq, hmem⟩

/-! ## Entries come and go -/

section Append
variable (h : WellFormed root dirs names) (hc : c ∈ dirs)
  (hrest : ∀ d ∈ dirs, d ≠ c → names' d = names d)
include h hrest

lemma connected_append (hcon : Connected root dirs names) (hnames : names' c = names c ++ [t]) :
    Connected root dirs names' := by
  apply hcon.of_parent (Finset.Subset.refl dirs)
  intro d hd p hp
  exact ⟨(h.parent_spec hd hp).1, hp.1, getElem?_append hnames hrest hd hp.2⟩

include hc

lemma single_append (hs : Single root dirs names) (hnames : names' c = names c ++ [t])
    (ht : t ∉ dirs) : Single root dirs names' := by
  intro d hd
  rw [h.references_append hc hnames hrest, if_neg (ne_of_mem_of_not_mem hd ht), Nat.add_zero]
  exact hs d hd

variable (hi : i ∉ dirs) (hnew : names' i = [i, c]) (hnames : names' c = names c ++ [i])
include hi hnew hnames

/-- A new directory lies below its parent. -/
lemma connected_make (hcon : Connected root dirs names) :
    Connected root (insert i dirs) names' := by
  have hold := h.connected_append hrest hcon hnames
  intro d hd
  rcases Finset.mem_insert.mp hd with rfl | hd
  · have hroot : d ≠ root := fun hroot => hi (hroot ▸ h.root_mem)
    refine (hold c hc).tail ⟨hroot, ?_⟩
    rw [hnew]
    rfl
  · exact hold d hd

/-- A new directory is entered once. -/
lemma single_make (hs : Single root dirs names) (hfresh : ∀ d ∈ dirs, i ∉ names d) :
    Single root (insert i dirs) names' := by
  intro d hd
  rw [h.references_make hc hi hnew hnames hrest]
  rcases Finset.mem_insert.mp hd with rfl | hd
  · have hzero : references dirs (extra root names) d = 0 :=
      references_eq_zero fun e he hmem => hfresh e he (List.mem_of_mem_drop hmem)
    rw [hzero, if_pos rfl, if_neg (ne_of_mem_of_not_mem h.root_mem hi).symm]
  · rw [if_neg (ne_of_mem_of_not_mem hd hi), Nat.add_zero]
    exact hs d hd

end Append

section Erase
variable {k : ℕ} (h : WellFormed root dirs names) (hc : c ∈ dirs) (hk : first root c ≤ k)
  (ht : (names c)[k]? = some t) (hnames : names' c = (names c).eraseIdx k)
  (hrest : ∀ d ∈ dirs, d ≠ c → names' d = names d)
include hk hnames hrest

include h in
lemma connected_erase (hcon : Connected root dirs names) : Connected root dirs names' := by
  apply hcon.of_parent (Finset.Subset.refl dirs)
  intro d hd p hp
  exact ⟨(h.parent_spec hd hp).1, (parent_erase hk hnames hrest hd).mpr hp⟩

include h in
/-- A directory that goes is nobody's parent. -/
lemma connected_drop (hcon : Connected root dirs names) (hempty : extra root names t = []) :
    Connected root (dirs.erase t) names' := by
  apply hcon.of_parent (Finset.erase_subset t dirs)
  intro d hd p hp
  have hd' := Finset.mem_of_mem_erase hd
  obtain ⟨hmem, hextra⟩ := h.parent_spec hd' hp
  refine ⟨Finset.mem_erase.mpr ⟨?_, hmem⟩, (parent_erase hk hnames hrest hd').mpr hp⟩
  rintro rfl
  rw [hempty] at hextra
  exact List.not_mem_nil hextra

include hc ht

lemma single_erase (hs : Single root dirs names) (htd : t ∉ dirs) : Single root dirs names' := by
  intro d hd
  have hcount := references_erase hc hk ht hnames hrest d
  rw [if_neg (ne_of_mem_of_not_mem hd htd), Nat.add_zero] at hcount
  rw [hcount]
  exact hs d hd

lemma single_drop (hs : Single root dirs names) (htd : t ∈ dirs)
    (hempty : extra root names t = []) : Single root (dirs.erase t) names' := by
  intro d hd
  obtain ⟨hdt, hd'⟩ := Finset.mem_erase.mp hd
  have hcount := references_drop hc hk ht hnames hrest htd hempty d
  rw [if_neg hdt, Nat.add_zero] at hcount
  rw [hcount]
  exact hs d hd'

end Erase

/-! ## What is found -/

section Found
variable {found : ι → List ι} (h : WellFormed root dirs names)
  (hfound : ∀ x ∈ dirs, found x = (extra root names x).filter fun y => decide (y ∈ dirs))
include h hfound

lemma mem_of_reach (ht : Reach found root t) : t ∈ dirs := by
  induction ht with
  | refl => exact h.root_mem
  | tail _ hmem ih =>
    rw [hfound _ ih, List.mem_filter, decide_eq_true_eq] at hmem
    exact hmem.2

/-- Everything that is a directory is found. -/
lemma reach_iff (hc : Connected root dirs names) : Reach found root t ↔ t ∈ dirs := by
  constructor
  · exact h.mem_of_reach hfound
  · intro ht
    have hpath : ∀ d, Relation.ReflTransGen (fun p d => Parent root names d p) root d →
        d ∈ dirs → Reach found root d := by
      intro d hpath
      induction hpath with
      | refl => exact fun _ => .refl
      | tail _ hp ih =>
        intro hd
        obtain ⟨hmem, hextra⟩ := h.parent_spec hd hp
        refine (ih hmem).tail ?_
        rw [hfound _ hmem, List.mem_filter, decide_eq_true_eq]
        exact ⟨hextra, hd⟩
    exact hpath t (hc t ht) ht

/-- What is found is a tree. -/
theorem tree (hs : Single root dirs names) : Tree found root where
  nodup := by
    intro x hx
    have hmem := h.mem_of_reach hfound hx
    rw [hfound x hmem, List.nodup_iff_count_le_one]
    intro y
    by_cases hy : y ∈ dirs
    · have hcount : (extra root names x).count y ≤ references dirs (extra root names) y :=
        count_le_references hmem y
      have hfilter := (List.filter_sublist (l := extra root names x)
        (p := fun y => decide (y ∈ dirs))).count_le y
      have hone := hs y hy
      split_ifs at hone <;> omega
    · rw [List.count_eq_zero_of_not_mem]
      · exact Nat.zero_le 1
      · intro hmem
        rw [List.mem_filter, decide_eq_true_eq] at hmem
        exact hy hmem.2
  once := by
    intro x y z hx hy hzx hzy
    have hxmem := h.mem_of_reach hfound hx
    have hymem := h.mem_of_reach hfound hy
    rw [hfound x hxmem, List.mem_filter, decide_eq_true_eq] at hzx
    rw [hfound y hymem, List.mem_filter, decide_eq_true_eq] at hzy
    by_contra hne
    -- two directories that enter it count for two
    have hx1 := List.count_pos_iff.mpr hzx.1
    have hy1 := List.count_pos_iff.mpr hzy.1
    have hsum := Finset.add_sum_erase dirs (fun d => (extra root names d).count z) hxmem
    have hle : (extra root names y).count z ≤
        ∑ d ∈ dirs.erase x, (extra root names d).count z :=
      Finset.single_le_sum (fun d _ => Nat.zero_le ((extra root names d).count z))
        (Finset.mem_erase.mpr ⟨fun heq => hne heq.symm, hymem⟩)
    have hone := hs z hzx.2
    unfold references at hone
    split_ifs at hone <;> omega
  root_notMem := by
    intro x hx hmem
    have hxmem := h.mem_of_reach hfound hx
    rw [hfound x hxmem, List.mem_filter, decide_eq_true_eq] at hmem
    have hzero := hs root h.root_mem
    rw [if_pos rfl] at hzero
    exact notMem_of_references_eq_zero hzero hxmem hmem.1

end Found

end WellFormed

end OsProjects.DirTree
