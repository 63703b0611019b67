import Mathlib

/-!
# A hand going round `k` positions

`ahead k h g` is the number of steps after which a hand at `h` arrives at `g`,
both being positions `0, …, k - 1` on a circle.
-/

namespace OsProjects.Hand

def ahead (k h g : ℤ) : ℤ := if h ≤ g then g - h else g + k - h

/-- `(h + 1) % k`, as programs write it. -/
lemma succ_mod {k h : ℤ} (h0 : 0 ≤ h) (hk : h < k) :
    (h + 1) % k = if h + 1 = k then 0 else h + 1 := by
  split_ifs with he
  · rw [he, Int.emod_self]
  · exact Int.emod_eq_of_lt (by omega) (by omega)

lemma succ_mod_nonneg {k h : ℤ} (hk : 0 < k) : 0 ≤ (h + 1) % k :=
  Int.emod_nonneg _ (by omega)

lemma succ_mod_lt {k h : ℤ} (hk : 0 < k) : (h + 1) % k < k :=
  Int.emod_lt_of_pos _ hk

variable {k h g : ℤ}

@[simp] lemma ahead_self : ahead k h h = 0 := by
  simp [ahead]

lemma ahead_nonneg (hk : h < k) (hg0 : 0 ≤ g) : 0 ≤ ahead k h g := by
  unfold ahead
  split_ifs <;> omega

lemma ahead_lt (h0 : 0 ≤ h) (hg : g < k) : ahead k h g < k := by
  unfold ahead
  split_ifs <;> omega

lemma ahead_eq_zero_iff (hk : h < k) (hg0 : 0 ≤ g) : ahead k h g = 0 ↔ g = h := by
  unfold ahead
  split_ifs <;> omega

/-- Advancing the hand brings every other position one step nearer. -/
lemma ahead_succ_mod (h0 : 0 ≤ h) (hk : h < k) (hg0 : 0 ≤ g) (hg : g < k) (hne : g ≠ h) :
    ahead k ((h + 1) % k) g = ahead k h g - 1 := by
  rw [succ_mod h0 hk]
  unfold ahead
  split_ifs <;> omega

/-- The position just passed is the farthest one. -/
lemma ahead_succ_mod_self (h0 : 0 ≤ h) (hk : h < k) : ahead k ((h + 1) % k) h = k - 1 := by
  rw [succ_mod h0 hk]
  unfold ahead
  split_ifs <;> omega

/-! ## Guarded positions

A position `f` is guarded when the hand cannot stop at it before every other
position satisfies `T`.  For a hand that stops everywhere this is `Guarded`; for
a hand that spares a position once for a set bit of `ref` it is `SecondChance`.
-/

variable {T : ℤ → Prop} {ref : ℤ → ℤ} {f : ℤ}

/-- The positions the hand has passed since it left `f` satisfy `T`. -/
def Guarded (k h : ℤ) (T : ℤ → Prop) (f : ℤ) : Prop :=
  ∀ g, 0 ≤ g → g < k → ahead k h f < ahead k h g → T g

/-- As `Guarded`, but a spared position may still lack `T` while its bit is clear,
as long as `f` has a set bit itself or lies ahead of it. -/
structure SecondChance (k h : ℤ) (ref : ℤ → ℤ) (T : ℤ → Prop) (f : ℤ) : Prop where
  passed : ∀ g, 0 ≤ g → g < k → ahead k h f < ahead k h g → T g ∨ (ref f ≠ 0 ∧ ref g = 0)
  spared : ref f = 0 → ∀ g, 0 ≤ g → g < k → g ≠ f → T g ∨ ref g = 0

/-- Where the hand points, a guarded position has `T` everywhere else. -/
lemma Guarded.at_hand (hk : h < k) (hf : Guarded k h T h) (hg0 : 0 ≤ g)
    (hg : g < k) (hne : g ≠ h) : T g := by
  refine hf g hg0 hg ?_
  rw [ahead_self]
  have h1 := ahead_nonneg hk hg0
  have h2 := mt (ahead_eq_zero_iff hk hg0).mp hne
  omega

/-- The hand stops at `h`, which satisfies the new `T`, and advances. -/
lemma Guarded.advance {S : ℤ → Prop} (h0 : 0 ≤ h) (hk : h < k) (hf0 : 0 ≤ f) (hfk : f < k)
    (hf : f ≠ h → Guarded k h T f) (hS : ∀ g, g ≠ h → T g → S g) (hh : S h) :
    Guarded k ((h + 1) % k) S f := by
  intro g hg0 hgk hlt
  by_cases hgh : g = h
  · exact hgh ▸ hh
  · by_cases hfh : f = h
    · -- the position just left is the farthest one
      rw [hfh, ahead_succ_mod_self h0 hk, ahead_succ_mod h0 hk hg0 hgk hgh] at hlt
      have := ahead_lt h0 hgk
      omega
    · rw [ahead_succ_mod h0 hk hf0 hfk hfh, ahead_succ_mod h0 hk hg0 hgk hgh] at hlt
      exact hS g hgh (hf hfh g hg0 hgk (by omega))

lemma SecondChance.mono {S : ℤ → Prop} (hf : SecondChance k h ref T f) (hS : ∀ g, T g → S g) :
    SecondChance k h ref S f :=
  ⟨fun g hg0 hgk hlt => (hf.passed g hg0 hgk hlt).imp_left (hS g),
    fun hr g hg0 hgk hne => (hf.spared hr g hg0 hgk hne).imp_left (hS g)⟩

/-- Setting the bit of a position that satisfies `T`. -/
lemma SecondChance.setBit {e : ℤ} (hf : SecondChance k h ref T f) (he : T e) :
    SecondChance k h (Function.update ref e 1) T f := by
  constructor
  · intro g hg0 hgk hlt
    by_cases hge : g = e
    · exact Or.inl (hge ▸ he)
    · rcases hf.passed g hg0 hgk hlt with hT | ⟨hrf, hrg⟩
      · exact Or.inl hT
      · right
        rw [Function.update_of_ne hge]
        refine ⟨?_, hrg⟩
        by_cases hfe : f = e
        · rw [hfe, Function.update_self]
          exact one_ne_zero
        · rwa [Function.update_of_ne hfe]
  · intro hr g hg0 hgk hne
    have hfe : f ≠ e := by
      rintro rfl
      rw [Function.update_self] at hr
      exact one_ne_zero hr
    rw [Function.update_of_ne hfe] at hr
    by_cases hge : g = e
    · exact Or.inl (hge ▸ he)
    · rw [Function.update_of_ne hge]
      exact hf.spared hr g hg0 hgk hne

/-- The hand finds a set bit, clears it and advances. -/
lemma SecondChance.clear (h0 : 0 ≤ h) (hk : h < k) (hf0 : 0 ≤ f) (hfk : f < k)
    (hr : ref h = 1) (hf : SecondChance k h ref T f) :
    SecondChance k ((h + 1) % k) (Function.update ref h 0) T f := by
  by_cases hfh : f = h
  · -- its first chance is gone; everything else was passed since its bit was set
    subst hfh
    constructor
    · intro g hg0 hgk hlt
      by_cases hgf : g = f
      · rw [hgf] at hlt
        exact absurd hlt (lt_irrefl _)
      · rw [ahead_succ_mod_self h0 hk, ahead_succ_mod h0 hk hg0 hgk hgf] at hlt
        have := ahead_lt h0 hgk
        omega
    · intro _ g hg0 hgk hne
      rw [Function.update_of_ne hne]
      have h1 := ahead_nonneg hk hg0
      have h2 := mt (ahead_eq_zero_iff hk hg0).mp hne
      exact (hf.passed g hg0 hgk (by rw [ahead_self]; omega)).imp_right And.right
  · constructor
    · intro g hg0 hgk hlt
      rw [Function.update_of_ne hfh]
      by_cases hgh : g = h
      · rw [hgh, Function.update_self]
        by_cases hrf : ref f = 0
        · have hspared := hf.spared hrf h h0 hk (Ne.symm hfh)
          exact Or.inl (hspared.resolve_right (by rw [hr]; exact one_ne_zero))
        · exact Or.inr ⟨hrf, rfl⟩
      · rw [Function.update_of_ne hgh]
        rw [ahead_succ_mod h0 hk hf0 hfk hfh, ahead_succ_mod h0 hk hg0 hgk hgh] at hlt
        exact hf.passed g hg0 hgk (by omega)
    · intro hrf g hg0 hgk hne
      rw [Function.update_of_ne hfh] at hrf
      by_cases hgh : g = h
      · rw [hgh, Function.update_self]
        exact Or.inr rfl
      · rw [Function.update_of_ne hgh]
        exact hf.spared hrf g hg0 hgk hne

/-- Where the hand stops, at a clear bit, a guarded position has `T` everywhere else. -/
lemma SecondChance.at_hand (hk : h < k) (hf : SecondChance k h ref T h)
    (hr : ref h = 0) (hg0 : 0 ≤ g) (hg : g < k) (hne : g ≠ h) : T g := by
  have h1 := ahead_nonneg hk hg0
  have h2 := mt (ahead_eq_zero_iff hk hg0).mp hne
  exact (hf.passed g hg0 hg (by rw [ahead_self]; omega)).resolve_right fun h => h.1 hr

/-- The hand stops at `h`, which satisfies the new `T`, sets its bit and advances. -/
lemma SecondChance.advance {S : ℤ → Prop} (h0 : 0 ≤ h) (hk : h < k) (hf0 : 0 ≤ f) (hfk : f < k)
    (hf : f ≠ h → SecondChance k h ref T f) (hS : ∀ g, g ≠ h → T g → S g) (hh : S h) :
    SecondChance k ((h + 1) % k) (Function.update ref h 1) S f := by
  by_cases hfh : f = h
  · subst hfh
    constructor
    · intro g hg0 hgk hlt
      by_cases hgf : g = f
      · rw [hgf] at hlt
        exact absurd hlt (lt_irrefl _)
      · rw [ahead_succ_mod_self h0 hk, ahead_succ_mod h0 hk hg0 hgk hgf] at hlt
        have := ahead_lt h0 hgk
        omega
    · intro hr
      rw [Function.update_self] at hr
      exact absurd hr one_ne_zero
  · constructor
    · intro g hg0 hgk hlt
      by_cases hgh : g = h
      · exact Or.inl (hgh ▸ hh)
      · rw [ahead_succ_mod h0 hk hf0 hfk hfh, ahead_succ_mod h0 hk hg0 hgk hgh] at hlt
        rw [Function.update_of_ne hfh, Function.update_of_ne hgh]
        exact ((hf hfh).passed g hg0 hgk (by omega)).imp_left (hS g hgh)
    · intro hrf g hg0 hgk hne
      rw [Function.update_of_ne hfh] at hrf
      by_cases hgh : g = h
      · exact Or.inl (hgh ▸ hh)
      · rw [Function.update_of_ne hgh]
        exact ((hf hfh).spared hrf g hg0 hgk hne).imp_left (hS g hgh)

end OsProjects.Hand
