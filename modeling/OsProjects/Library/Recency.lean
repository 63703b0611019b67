import Mathlib

/-!
# Recency lists

The contents of a least-recently-used cache of `k` places, as the list of its
entries from the most to the least recently used.
-/

namespace OsProjects.Recency

variable {α : Type*} [DecidableEq α]

/-- An access of `a`: it moves to the front, and what no longer fits falls off the end. -/
def lruStep (k : ℕ) (l : List α) (a : α) : List α := (a :: l.erase a).take k

lemma take_erase_take (l : List α) (a : α) (j : ℕ) :
    ((l.take (j + 1)).erase a).take j = (l.erase a).take j := by
  induction l generalizing j with
  | nil => simp
  | cons b l ih =>
    rw [List.take_succ_cons]
    by_cases hb : b = a
    · rw [hb, List.erase_cons_head, List.erase_cons_head, List.take_take, min_self]
    · rw [List.erase_cons_tail (by simpa using hb), List.erase_cons_tail (by simpa using hb)]
      cases j with
      | zero => simp
      | succ j => rw [List.take_succ_cons, List.take_succ_cons, ih]

/-- Inclusion: the smaller cache holds the front part of the larger one. -/
theorem lruStep_take {k m : ℕ} (hkm : k ≤ m) (l : List α) (a : α) :
    lruStep k (l.take k) a = (lruStep m l a).take k := by
  rw [lruStep, lruStep, List.take_take, min_eq_left hkm]
  cases k with
  | zero => simp
  | succ k => rw [List.take_succ_cons, List.take_succ_cons, take_erase_take]

lemma lruStep_of_mem {k : ℕ} {l : List α} {a : α} (ha : a ∈ l) (hl : l.length ≤ k) :
    lruStep k l a = a :: l.erase a := by
  have hpos := List.length_pos_of_mem ha
  have hlen := List.length_erase_of_mem ha
  exact List.take_of_length_le (by simp only [List.length_cons]; omega)

lemma lruStep_of_lt {k : ℕ} {l : List α} {a : α} (ha : a ∉ l) (hl : l.length < k) :
    lruStep k l a = a :: l := by
  rw [lruStep, List.erase_of_not_mem ha]
  exact List.take_of_length_le hl

/-- A full cache drops its last entry for a new one. -/
lemma lruStep_of_full {k : ℕ} {l : List α} {a b : α} (ha : a ∉ l ++ [b]) (hl : l.length + 1 = k) :
    lruStep k (l ++ [b]) a = a :: l := by
  rw [lruStep, List.erase_of_not_mem ha, ← hl, List.take_succ_cons, List.take_left]

/-! ## Ages -/

/-- The number of accesses since the last one of `a`. -/
def age (trace : List α) (a : α) : ℕ := trace.reverse.idxOf a

variable {trace l : List α} {a b : α}

lemma age_concat_self : age (trace ++ [a]) a = 0 := by
  rw [age, List.reverse_concat, List.idxOf_cons_self]

lemma age_concat_of_ne (h : b ≠ a) : age (trace ++ [a]) b = age trace b + 1 := by
  rw [age, List.reverse_concat, List.idxOf_cons_ne _ (Ne.symm h)]
  rfl

/-- What was the older one stays the older one. -/
lemma age_lt_concat {x y : α} (hx : x ≠ a) (hy : y ≠ a) (h : age trace x < age trace y) :
    age (trace ++ [a]) x < age (trace ++ [a]) y := by
  rw [age_concat_of_ne hx, age_concat_of_ne hy]
  exact Nat.succ_lt_succ h

/-- The recency list is ordered by age. -/
lemma lruStep_ordered (k : ℕ) (h : l.Pairwise fun x y => age trace x < age trace y) :
    (lruStep k l a).Pairwise fun x y => age (trace ++ [a]) x < age (trace ++ [a]) y := by
  have hnodup : l.Nodup := h.imp fun hlt heq => absurd (heq ▸ hlt) (lt_irrefl _)
  have hne : ∀ x ∈ l.erase a, x ≠ a := fun x hx => (hnodup.mem_erase_iff.mp hx).1
  refine List.Pairwise.sublist (List.take_sublist _ _) (List.pairwise_cons.mpr ⟨?_, ?_⟩)
  · intro x hx
    rw [age_concat_self, age_concat_of_ne (hne x hx)]
    exact Nat.succ_pos _
  · apply (h.sublist List.erase_sublist).imp_of_mem
    intro x y hx hy hlt
    exact age_lt_concat (hne x hx) (hne y hy) hlt

end OsProjects.Recency
