import Mathlib

/-!
# Ring buffers

The elements of a sequence `l` are stored one after the other in the slots
`0, …, n - 1`, again and again.  `Holds n buf l t` says that those from the
`t`-th on are still there.
-/

namespace OsProjects.Ring

variable {α : Type} {n t : ℕ} {buf : ℕ → α} {l : List α}

structure Holds (n : ℕ) (buf : ℕ → α) (l : List α) (t : ℕ) : Prop where
  le : t ≤ l.length
  fits : l.length ≤ t + n
  get : ∀ k, t ≤ k → k < l.length → l[k]? = some (buf (k % n))

/-- Fewer than `n` positions apart, two positions have different slots. -/
lemma mod_ne_mod {a b : ℕ} (hab : a < b) (hb : b < a + n) : a % n ≠ b % n := by
  intro h
  have hdvd : n ∣ b - a := (Nat.modEq_iff_dvd' hab.le).mp h
  have := Nat.le_of_dvd (by omega) hdvd
  omega

lemma Holds.nil (n : ℕ) (buf : ℕ → α) : Holds n buf [] 0 := by
  refine ⟨le_rfl, Nat.zero_le _, fun k _ hk => ?_⟩
  exact absurd hk (Nat.not_lt_zero k)

/-- While fewer than `n` elements are stored the next slot is free. -/
lemma Holds.put (h : Holds n buf l t) (hfull : l.length < t + n) (x : α) :
    Holds n (Function.update buf (l.length % n) x) (l ++ [x]) t := by
  have hlen : (l ++ [x]).length = l.length + 1 := List.length_append
  refine ⟨?_, ?_, fun k htk hk => ?_⟩
  · have := h.le
    omega
  · omega
  · by_cases hkl : k < l.length
    · rw [List.getElem?_append_left hkl, Function.update_of_ne (mod_ne_mod hkl (by omega))]
      exact h.get k htk hkl
    · obtain rfl : k = l.length := by omega
      rw [Function.update_self, List.getElem?_concat_length]

/-- The oldest stored element. -/
lemma Holds.front (h : Holds n buf l t) (ht : t < l.length) : l[t]? = some (buf (t % n)) :=
  h.get t le_rfl ht

lemma Holds.drop (h : Holds n buf l t) (ht : t < l.length) : Holds n buf l (t + 1) := by
  refine ⟨ht, ?_, fun k htk hk => h.get k (by omega) hk⟩
  have := h.fits
  omega

end OsProjects.Ring
