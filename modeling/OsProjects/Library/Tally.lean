import Mathlib

/-!
# Counting threads

`tally P pc` is the number of threads whose program counter satisfies `P`.
-/

namespace OsProjects.Tally

variable {ι β : Type} [Fintype ι]

def tally (P : β → Bool) (pc : ι → β) : ℕ :=
  (Finset.univ.filter fun i => P (pc i) = true).card

lemma tally_eq_sum (P : β → Bool) (pc : ι → β) : tally P pc = ∑ i, (P (pc i)).toNat := by
  rw [tally, Finset.card_filter]
  refine Finset.sum_congr rfl fun i _ => ?_
  cases P (pc i) <;> rfl

lemma tally_eq_zero {P : β → Bool} {pc : ι → β} (h : ∀ i, P (pc i) = false) :
    tally P pc = 0 := by
  rw [tally_eq_sum]
  apply Finset.sum_eq_zero
  intro i _
  rw [h i]
  rfl

lemma tally_mono {P Q : β → Bool} {pc : ι → β} (h : ∀ b, P b = true → Q b = true) :
    tally P pc ≤ tally Q pc := by
  apply Finset.card_le_card
  intro i hi
  rw [Finset.mem_filter] at hi ⊢
  exact ⟨hi.1, h _ hi.2⟩

/-- A thread that satisfies `P` is counted. -/
lemma tally_pos {P : β → Bool} {pc : ι → β} {i : ι} (h : P (pc i) = true) : 0 < tally P pc := by
  apply Finset.card_pos.mpr
  exact ⟨i, Finset.mem_filter.mpr ⟨Finset.mem_univ i, h⟩⟩

variable [DecidableEq ι]

/-- One thread moves. -/
lemma tally_update (P : β → Bool) (pc : ι → β) (i : ι) (b : β) :
    tally P (Function.update pc i b) + (P (pc i)).toNat = tally P pc + (P b).toNat := by
  have hcomp : (fun j => (P (Function.update pc i b j)).toNat) =
      Function.update (fun j => (P (pc j)).toNat) i (P b).toNat := by
    funext j
    by_cases hj : j = i
    · rw [hj, Function.update_self, Function.update_self]
    · rw [Function.update_of_ne hj, Function.update_of_ne hj]
  rw [tally_eq_sum, tally_eq_sum, hcomp, Finset.sum_update_of_mem (Finset.mem_univ i),
    Finset.sum_eq_add_sum_sdiff_singleton_of_mem (Finset.mem_univ i) fun j => (P (pc j)).toNat]
  omega

lemma tally_update_eq {P : β → Bool} {pc : ι → β} {i : ι} {b : β} (h : P b = P (pc i)) :
    tally P (Function.update pc i b) = tally P pc := by
  have := tally_update P pc i b
  rw [h] at this
  omega

/-- The sum over all threads, when one of them moves. -/
lemma sum_update (f : β → ℕ) (pc : ι → β) (i : ι) (b : β) :
    ∑ j, f (Function.update pc i b j) + f (pc i) = ∑ j, f (pc j) + f b := by
  have hcomp : (fun j => f (Function.update pc i b j)) =
      Function.update (fun j => f (pc j)) i (f b) := Function.comp_update f pc i b
  rw [hcomp, Finset.sum_update_of_mem (Finset.mem_univ i),
    Finset.sum_eq_add_sum_sdiff_singleton_of_mem (Finset.mem_univ i) fun j => f (pc j)]
  omega

/-! ## Processes in a list -/

/-- One process of a list changes. -/
lemma sum_map_set {α : Type} (f : α → ℕ) {l : List α} {i : ℕ} {a : α} (h : l[i]? = some a) (b : α) :
    ((l.set i b).map f).sum + f a = (l.map f).sum + f b := by
  induction l generalizing i with
  | nil => simp at h
  | cons c l ih =>
    cases i with
    | zero =>
      obtain rfl : c = a := by simpa using h
      simp only [List.set_cons_zero, List.map_cons, List.sum_cons]
      omega
    | succ i =>
      have hl := ih (by simpa using h)
      simp only [List.set_cons_succ, List.map_cons, List.sum_cons]
      omega

lemma sum_map_set_eq {α : Type} {f : α → ℕ} {l : List α} {i : ℕ} {a b : α} (h : l[i]? = some a)
    (hab : f b = f a) : ((l.set i b).map f).sum = (l.map f).sum := by
  have := sum_map_set f h b
  omega

lemma sum_map_concat {α : Type} (f : α → ℕ) (l : List α) (b : α) :
    ((l ++ [b]).map f).sum = (l.map f).sum + f b := by
  simp

end OsProjects.Tally
