import Mathlib

/-!
# First-fit allocation

`used i` tells whether the unit `i` is taken.  `firstFree` searches the units
from a given one upwards; `freeCount` counts the free ones below a bound.
-/

namespace OsProjects.FirstFit

/-- The first free unit among the `n` units from `i` on. -/
def firstFree (used : ℤ → Bool) : ℕ → ℤ → Option ℤ
  | 0, _ => none
  | n + 1, i => if used i = false then some i else firstFree used n (i + 1)

noncomputable def freeCount (used : ℤ → Bool) (n : ℕ) : ℕ :=
  ((Finset.Ico (0 : ℤ) n).filter fun i => used i = false).card

variable {used : ℤ → Bool} {n : ℕ} {i j : ℤ}

lemma firstFree_some (h : firstFree used n i = some j) :
    i ≤ j ∧ j < i + n ∧ used j = false ∧ ∀ k, i ≤ k → k < j → used k = true := by
  induction n generalizing i with
  | zero => cases h
  | succ n ih =>
    unfold firstFree at h
    by_cases hi : used i = false
    · rw [if_pos hi] at h
      obtain rfl := Option.some.inj h
      exact ⟨le_rfl, by omega, hi, fun k hik hki => absurd hik (by omega)⟩
    · rw [if_neg hi] at h
      obtain ⟨hij, hjn, hj, hall⟩ := ih h
      refine ⟨by omega, by push_cast; omega, hj, fun k hik hkj => ?_⟩
      by_cases hk : k = i
      · rw [hk]
        exact Bool.eq_true_of_not_eq_false hi
      · exact hall k (by omega) hkj

lemma firstFree_none (h : firstFree used n i = none) (k : ℤ) (hik : i ≤ k) (hk : k < i + n) :
    used k = true := by
  induction n generalizing i with
  | zero =>
    push_cast at hk
    omega
  | succ n ih =>
    unfold firstFree at h
    by_cases hi : used i = false
    · rw [if_pos hi] at h
      cases h
    · rw [if_neg hi] at h
      by_cases hki : k = i
      · rw [hki]
        exact Bool.eq_true_of_not_eq_false hi
      · exact ih h (by omega) (by push_cast at hk; omega)

/-- While something is free, the search succeeds. -/
lemma exists_firstFree (h : 0 < freeCount used n) :
    ∃ j, firstFree used n 0 = some j ∧ 0 ≤ j ∧ j < n ∧ used j = false := by
  cases hf : firstFree used n 0 with
  | some j =>
    obtain ⟨h0, hn, hj, -⟩ := firstFree_some hf
    exact ⟨j, rfl, h0, by omega, hj⟩
  | none =>
    obtain ⟨k, hk⟩ := Finset.card_pos.mp h
    rw [Finset.mem_filter, Finset.mem_Ico] at hk
    have hused := firstFree_none hf k hk.1.1 (by omega)
    rw [hk.2] at hused
    cases hused

lemma freeCount_take (h0 : 0 ≤ i) (hn : i < n) (hi : used i = false) :
    freeCount (Function.update used i true) n + 1 = freeCount used n := by
  have hmem : i ∈ (Finset.Ico (0 : ℤ) n).filter fun j => used j = false := by
    rw [Finset.mem_filter, Finset.mem_Ico]
    exact ⟨⟨h0, hn⟩, hi⟩
  have hset : ((Finset.Ico (0 : ℤ) n).filter fun j => Function.update used i true j = false) =
      ((Finset.Ico (0 : ℤ) n).filter fun j => used j = false).erase i := by
    ext j
    simp only [Finset.mem_filter, Finset.mem_erase]
    by_cases hj : j = i
    · rw [hj, Function.update_self]
      simp
    · rw [Function.update_of_ne hj]
      tauto
  rw [freeCount, hset, Finset.card_erase_add_one hmem]
  rfl

lemma freeCount_release (h0 : 0 ≤ i) (hn : i < n) (hi : used i = true) :
    freeCount (Function.update used i false) n = freeCount used n + 1 := by
  have h := @freeCount_take (Function.update used i false) n i h0 hn (Function.update_self ..)
  rw [Function.update_idem, ← hi, Function.update_eq_self] at h
  exact h.symm

/-- Several free units are taken at once. -/
lemma freeCount_takeAll {used' : ℤ → Bool} {bs : List ℤ} (hnodup : bs.Nodup)
    (hfree : ∀ b ∈ bs, 0 ≤ b ∧ b < n ∧ used b = false)
    (hused : ∀ b, used' b = true ↔ used b = true ∨ b ∈ bs) :
    freeCount used' n + bs.length = freeCount used n := by
  have hset : ((Finset.Ico (0 : ℤ) n).filter fun b => used' b = false) =
      ((Finset.Ico (0 : ℤ) n).filter fun b => used b = false) \ bs.toFinset := by
    ext b
    have hb := hused b
    rw [Finset.mem_sdiff, Finset.mem_filter, Finset.mem_filter, List.mem_toFinset]
    cases h : used b <;> cases h' : used' b <;> simp_all
  have hsub : bs.toFinset ⊆ (Finset.Ico (0 : ℤ) n).filter fun b => used b = false := by
    intro b hb
    obtain ⟨h0, hlt, hbit⟩ := hfree b (List.mem_toFinset.mp hb)
    rw [Finset.mem_filter, Finset.mem_Ico]
    exact ⟨⟨h0, hlt⟩, hbit⟩
  unfold freeCount
  rw [hset, ← List.toFinset_card_of_nodup hnodup]
  exact Finset.card_sdiff_add_card_eq_card hsub

lemma freeCount_le (used : ℤ → Bool) (n : ℕ) : freeCount used n ≤ n := by
  refine (Finset.card_filter_le _ _).trans ?_
  rw [Int.card_Ico]
  omega

lemma freeCount_eq_zero (h : ∀ i : ℤ, 0 ≤ i → i < n → used i = true) : freeCount used n = 0 := by
  apply Finset.card_eq_zero.mpr
  apply Finset.filter_eq_empty_iff.mpr
  intro i hi
  rw [Finset.mem_Ico] at hi
  rw [h i hi.1 hi.2]
  exact Bool.false_ne_true ∘ Eq.symm

/-- The units below `m` are taken. -/
lemma freeCount_of_lt {m : ℕ} (hm : m ≤ n) (h : ∀ i : ℤ, 0 ≤ i → (used i = true ↔ i < m)) :
    freeCount used n = n - m := by
  have hset : ((Finset.Ico (0 : ℤ) n).filter fun i => used i = false) = Finset.Ico (m : ℤ) n := by
    ext i
    rw [Finset.mem_filter, Finset.mem_Ico, Finset.mem_Ico]
    constructor
    · rintro ⟨⟨h0, hlt⟩, hfree⟩
      refine ⟨?_, hlt⟩
      by_contra hi
      rw [(h i h0).mpr (by omega)] at hfree
      cases hfree
    · rintro ⟨hmi, hlt⟩
      refine ⟨⟨by omega, hlt⟩, Bool.eq_false_of_not_eq_true fun hused => ?_⟩
      rw [h i (by omega)] at hused
      omega
  rw [freeCount, hset, Int.card_Ico]
  omega

/-- The search finds the first of the free units above `m`. -/
lemma firstFree_of_lt {m : ℕ} (hm : m < n) (h : ∀ i : ℤ, 0 ≤ i → (used i = true ↔ i < m)) :
    firstFree used n 0 = some (m : ℤ) := by
  cases hf : firstFree used n 0 with
  | some j =>
    obtain ⟨h0, -, hj, hbelow⟩ := firstFree_some hf
    have hge : ¬ j < m := by
      rw [← h j h0, hj]
      exact Bool.false_ne_true
    have hle : ¬ (m : ℤ) < j := fun hlt =>
      absurd ((h m (by omega)).mp (hbelow m (by omega) hlt)) (lt_irrefl _)
    congr 1
    omega
  | none =>
    have hused := firstFree_none hf m (by omega) (by omega)
    rw [h m (by omega)] at hused
    omega

end OsProjects.FirstFit
