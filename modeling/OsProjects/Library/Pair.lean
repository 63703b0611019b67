import Mathlib

/-!
# Two threads

The threads are `0` and `1`, and `1 - t` is the one that `t` is not.
-/

namespace OsProjects.Pair

scoped instance neZeroTwo : NeZero 2 := ⟨two_ne_zero⟩

lemma eq_or_other (t u : Fin 2) : u = t ∨ u = 1 - t := by
  revert t u
  decide

lemma other_ne (t : Fin 2) : 1 - t ≠ t := by
  revert t
  decide

@[simp] lemma other_other (t : Fin 2) : 1 - (1 - t) = t := by
  revert t
  decide

lemma sum_eq (f : Fin 2 → ℕ) (t : Fin 2) : f 0 + f 1 = f t + f (1 - t) := by
  rcases eq_or_other 0 t with rfl | rfl
  · rfl
  · exact Nat.add_comm _ _

end OsProjects.Pair
