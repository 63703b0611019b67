import Mathlib

/-!
# Schedules for a cache

`Schedule h C ps n D`: a cache of `h` places serves the pages `ps` with `n`
faults, starts with the pages `C` and ends with `D`.  It may look ahead, and it
may drop pages whenever it likes.
-/

namespace OsProjects.Competitive

variable {α β : Type*} [DecidableEq α]

def fault (C : Finset α) (p : α) : ℕ := if p ∈ C then 0 else 1

inductive Schedule (h : ℕ) : Finset α → List α → ℕ → Finset α → Prop
  | nil (C : Finset α) : Schedule h C [] 0 C
  | cons {C E D : Finset α} {p : α} {ps : List α} {n : ℕ} (hp : p ∈ E) (hsub : E ⊆ insert p C)
      (hcard : E.card ≤ h) (hps : Schedule h E ps n D) :
      Schedule h C (p :: ps) (fault C p + n) D

variable {h k n m : ℕ} {C D : Finset α} {p : α} {ps qs : List α}

lemma fault_of_mem (hp : p ∈ C) : fault C p = 0 := if_pos hp

lemma fault_of_notMem (hp : p ∉ C) : fault C p = 1 := if_neg hp

lemma Schedule.of_append (hs : Schedule h C (ps ++ qs) n D) :
    ∃ a b E, Schedule h C ps a E ∧ Schedule h E qs b D ∧ n = a + b := by
  induction ps generalizing C n with
  | nil => exact ⟨0, n, C, .nil C, hs, (zero_add n).symm⟩
  | cons p ps ih =>
    cases hs with
    | cons hp hsub hcard hrest =>
      obtain ⟨a, b, E, ha, hb, rfl⟩ := ih hrest
      exact ⟨_, b, E, .cons hp hsub hcard ha, hb, (add_assoc _ a b).symm⟩

lemma Schedule.append {E : Finset α} (ha : Schedule h C ps n E) (hb : Schedule h E qs m D) :
    Schedule h C (ps ++ qs) (n + m) D := by
  induction ha with
  | nil =>
    rw [zero_add]
    exact hb
  | cons hp hsub hcard _ ih =>
    rw [add_assoc]
    exact .cons hp hsub hcard (ih hb)

lemma Schedule.card_le (hC : C.card ≤ h) (hs : Schedule h C ps n D) : D.card ≤ h := by
  induction hs with
  | nil => exact hC
  | cons hp hsub hcard _ ih => exact ih hcard

/-- Every page that is not there at first costs a fault. -/
theorem Schedule.card_sdiff_le (hs : Schedule h C ps n D) : (ps.toFinset \ C).card ≤ n := by
  induction hs with
  | nil => simp
  | @cons C C' D p ps n hp hsub hcard hps ih =>
    have hcover : (p :: ps).toFinset \ C ⊆ ({p} \ C) ∪ (ps.toFinset \ C') := by
      intro q hq
      rw [Finset.mem_sdiff, List.mem_toFinset, List.mem_cons] at hq
      obtain ⟨hq, hqC⟩ := hq
      rw [Finset.mem_union, Finset.mem_sdiff, Finset.mem_sdiff, Finset.mem_singleton,
        List.mem_toFinset]
      by_cases hqp : q = p
      · exact Or.inl ⟨hqp, hqC⟩
      · refine Or.inr ⟨hq.resolve_left hqp, fun hqC' => hqC ?_⟩
        exact (Finset.mem_insert.mp (hsub hqC')).resolve_left hqp
    have hfirst : ({p} \ C).card = fault C p := by
      by_cases hpC : p ∈ C
      · rw [fault_of_mem hpC,
          Finset.sdiff_eq_empty_iff_subset.mpr (Finset.singleton_subset_iff.mpr hpC),
          Finset.card_empty]
      · rw [fault_of_notMem hpC, Finset.sdiff_eq_self_of_disjoint
          (Finset.disjoint_singleton_left.mpr hpC), Finset.card_singleton]
    calc ((p :: ps).toFinset \ C).card
        ≤ (({p} \ C) ∪ (ps.toFinset \ C')).card := Finset.card_le_card hcover
      _ ≤ ({p} \ C).card + (ps.toFinset \ C').card := Finset.card_union_le _ _
      _ ≤ fault C p + n := by
        rw [hfirst]
        exact Nat.add_le_add_left ih _

/-- A page that is there at first takes one of the places. -/
lemma Schedule.card_insert_le (hs : Schedule h C ps n D) (hC : C.card ≤ h) (hp : p ∈ C) :
    (insert p ps.toFinset).card ≤ h + n := by
  have hcover : insert p ps.toFinset ⊆ C ∪ (ps.toFinset \ C) := by
    intro q hq
    rw [Finset.union_sdiff_self_eq_union, Finset.mem_union]
    rcases Finset.mem_insert.mp hq with rfl | hq
    · exact Or.inl hp
    · exact Or.inr hq
  calc (insert p ps.toFinset).card
      ≤ (C ∪ (ps.toFinset \ C)).card := Finset.card_le_card hcover
    _ ≤ C.card + (ps.toFinset \ C).card := Finset.card_union_le _ _
    _ ≤ h + n := Nat.add_le_add hC hs.card_sdiff_le

/-! ## Conservative counts -/

/-- The longest part of the list that keeps the set within `k` pages, and the page after it. -/
lemma exists_phase (S : Finset α) (π : β → α) (bs : List β) (hS : S.card ≤ k) :
    (S ∪ (bs.map π).toFinset).card ≤ k ∨
    ∃ as b cs, bs = as ++ b :: cs ∧ (S ∪ (as.map π).toFinset).card ≤ k ∧
      k < (insert (π b) (S ∪ (as.map π).toFinset)).card := by
  induction bs generalizing S with
  | nil =>
    left
    simpa using hS
  | cons b bs ih =>
    by_cases hb : (insert (π b) S).card ≤ k
    · have hset : ∀ as : List β, S ∪ ((b :: as).map π).toFinset =
          insert (π b) S ∪ (as.map π).toFinset := by
        intro as
        rw [List.map_cons, List.toFinset_cons, Finset.union_insert, Finset.insert_union]
      rcases ih (insert (π b) S) hb with hall | ⟨as, b', cs, rfl, has, hb'⟩
      · left
        rw [hset]
        exact hall
      · right
        refine ⟨b :: as, b', cs, rfl, ?_, ?_⟩
        · rw [hset]
          exact has
        · rw [hset]
          exact hb'
    · right
      refine ⟨[], b, bs, rfl, ?_, ?_⟩
      · simpa using hS
      · simpa using hb

/-- The count `f` of the faults on the requests so far grows by `k` at most while the
requests touch no more than `k` pages. -/
def Conservative (k : ℕ) (π : β → α) (f : List β → ℕ) (whole : List β) : Prop :=
  ∀ xs ys, xs ++ ys <+: whole → (ys.map π).toFinset.card ≤ k → f (xs ++ ys) ≤ f xs + k

/-- The phases begin at a request that the schedule has already served. -/
lemma competitive_phases {π : β → α} {f : List β → ℕ} {whole : List β}
    (hf : Conservative k π f whole) (hk : 1 ≤ k) (hhk : h ≤ k) (ys : List β) :
    ∀ (xs : List β) (b : β) (n : ℕ) (C : Finset α), xs ++ b :: ys <+: whole →
      Schedule h C (ys.map π) n D → C.card ≤ h → π b ∈ C →
        (k + 1 - h) * f (xs ++ b :: ys) ≤ (k + 1 - h) * f xs + k * n + (k + 1 - h) * k := by
  induction hlen : ys.length using Nat.strong_induction_on generalizing ys with
  | _ len ih =>
  intro xs b n C hpre hs hC hb
  have hone : ({π b} : Finset α).card ≤ k := by
    rw [Finset.card_singleton]
    exact hk
  have hset : ∀ as : List β, ((b :: as).map π).toFinset = {π b} ∪ (as.map π).toFinset := by
    intro as
    rw [List.map_cons, List.toFinset_cons, Finset.insert_eq]
  rcases exists_phase {π b} π ys hone with hall | ⟨as, r, cs, rfl, has, hr⟩
  · -- the last phase
    have hstep := hf xs (b :: ys) hpre (by rw [hset]; exact hall)
    calc (k + 1 - h) * f (xs ++ b :: ys)
        ≤ (k + 1 - h) * (f xs + k) := Nat.mul_le_mul_left _ hstep
      _ = (k + 1 - h) * f xs + (k + 1 - h) * k := Nat.mul_add _ _ _
      _ ≤ (k + 1 - h) * f xs + k * n + (k + 1 - h) * k := by omega
  · have happ : xs ++ b :: (as ++ r :: cs) = (xs ++ b :: as) ++ r :: cs := by simp
    have hmap : (as ++ r :: cs).map π = (as ++ [r]).map π ++ cs.map π := by simp
    rw [hmap] at hs
    obtain ⟨n₁, n₂, E, hs₁, hs₂, rfl⟩ := hs.of_append
    have hphase : f (xs ++ b :: as) ≤ f xs + k := by
      refine hf xs (b :: as) ?_ (by rw [hset]; exact has)
      exact (List.prefix_append _ _).trans (happ ▸ hpre)
    -- `k + 1` pages, one of them there at first, in `h` places
    have hcost : k + 1 - h ≤ n₁ := by
      have hle := hs₁.card_insert_le hC hb
      have hpages : insert (π b) ((as ++ [r]).map π).toFinset =
          insert (π r) ({π b} ∪ (as.map π).toFinset) := by
        ext q
        simp only [List.map_append, List.map_cons, List.map_nil, Finset.mem_insert,
          List.mem_toFinset, List.mem_append, List.mem_singleton, Finset.mem_union,
          Finset.mem_singleton]
        tauto
      rw [hpages] at hle
      omega
    have hE : E.card ≤ h := hs₁.card_le hC
    have hrE : π r ∈ E := by
      rw [List.map_append] at hs₁
      obtain ⟨_, _, _, -, hlast, -⟩ := hs₁.of_append
      rw [List.map_cons, List.map_nil] at hlast
      cases hlast with
      | cons hp _ _ hnil =>
        cases hnil
        exact hp
    have hrest := ih cs.length (by rw [← hlen]; simp; omega) cs rfl (xs ++ b :: as) r n₂ E
      (happ ▸ hpre) hs₂ hE hrE
    rw [happ]
    calc (k + 1 - h) * f ((xs ++ b :: as) ++ r :: cs)
        ≤ (k + 1 - h) * f (xs ++ b :: as) + k * n₂ + (k + 1 - h) * k := hrest
      _ ≤ (k + 1 - h) * (f xs + k) + k * n₂ + (k + 1 - h) * k := by
        gcongr
      _ = (k + 1 - h) * f xs + (k + 1 - h) * k + k * n₂ + (k + 1 - h) * k := by
        rw [Nat.mul_add]
      _ ≤ (k + 1 - h) * f xs + k * n₁ + k * n₂ + (k + 1 - h) * k := by
        have := Nat.mul_le_mul_left k hcost
        rw [Nat.mul_comm k (k + 1 - h)] at this
        omega
      _ = (k + 1 - h) * f xs + k * (n₁ + n₂) + (k + 1 - h) * k := by ring

/-- A conservative cache of `k` places against any schedule of `h` places: per `k + 1 - h`
faults of the schedule it has at most `k`, after the first `k`. -/
theorem competitive {π : β → α} {f : List β → ℕ} {xs ys : List β}
    (hf : Conservative k π f (xs ++ ys)) (hk : 1 ≤ k) (hhk : h ≤ k)
    (hs : Schedule h C (ys.map π) n D) :
    (k + 1 - h) * f (xs ++ ys) ≤ (k + 1 - h) * f xs + k * n + (k + 1 - h) * k := by
  cases ys with
  | nil =>
    rw [List.append_nil]
    omega
  | cons b ys =>
    rw [List.map_cons] at hs
    cases hs with
    | @cons _ _ _ _ _ n hb _ hcard hrest =>
      have hle := competitive_phases hf hk hhk ys xs b n _ (List.prefix_rfl) hrest hcard hb
      have hmono : k * n ≤ k * (fault C (π b) + n) := Nat.mul_le_mul_left k (Nat.le_add_left _ _)
      omega

/-! ## The adversary -/

lemma schedule_hits (hC : C.card ≤ h) (hps : ∀ p ∈ ps, p ∈ C) : Schedule h C ps 0 C := by
  induction ps with
  | nil => exact .nil C
  | cons p ps ih =>
    have hp := hps p List.mem_cons_self
    have hs := Schedule.cons hp (Finset.subset_insert p C) hC
      (ih fun q hq => hps q (List.mem_cons_of_mem _ hq))
    rw [fault_of_mem hp] at hs
    exact hs

/-- Among `k + 1` pages, a schedule of `k` places can always drop a page that is not wanted
for the next `k` requests. -/
theorem exists_schedule {U : Finset α} (hU : U.card = k + 1) (hk : 1 ≤ k) (ps : List α) :
    ∀ C ⊆ U, C.card ≤ k → (∀ p ∈ ps, p ∈ U) →
      ∃ n D, Schedule k C ps n D ∧ k * n ≤ ps.length + (k - 1) + k * (k - C.card) := by
  induction hlen : ps.length using Nat.strong_induction_on generalizing ps with
  | _ len ih =>
  intro C hCU hCk hps
  cases ps with
  | nil => exact ⟨0, C, .nil C, by omega⟩
  | cons p ps =>
    have hpU := hps p List.mem_cons_self
    have hrest : ∀ q ∈ ps, q ∈ U := fun q hq => hps q (List.mem_cons_of_mem _ hq)
    rw [List.length_cons] at hlen
    by_cases hp : p ∈ C
    · obtain ⟨n, D, hs, hn⟩ := ih ps.length (by omega) ps rfl C hCU hCk hrest
      have hcons := Schedule.cons hp (Finset.subset_insert p C) hCk hs
      rw [fault_of_mem hp, zero_add] at hcons
      exact ⟨n, D, hcons, by omega⟩
    · by_cases hfull : C.card < k
      · -- there is a free place
        have hcard : (insert p C).card = C.card + 1 := Finset.card_insert_of_notMem hp
        obtain ⟨n, D, hs, hn⟩ := ih ps.length (by omega) ps rfl (insert p C)
          (Finset.insert_subset hpU hCU) (by omega) hrest
        have hcons := Schedule.cons (Finset.mem_insert_self p C) subset_rfl (by omega) hs
        rw [fault_of_notMem hp] at hcons
        refine ⟨_, D, hcons, ?_⟩
        have hfree : k - C.card = (k - (insert p C).card) + 1 := by omega
        rw [hfree, Nat.mul_add, Nat.mul_add]
        omega
      · -- the next `k - 1` requests leave one of the `k` pages alone
        have hnext : ((ps.take (k - 1)).toFinset).card < C.card := by
          have := List.toFinset_card_le (ps.take (k - 1))
          have := List.length_take_le (k - 1) ps
          omega
        obtain ⟨q, hqC, hq⟩ := Finset.exists_mem_notMem_of_card_lt_card hnext
        rw [List.mem_toFinset] at hq
        have hqp : p ≠ q := fun h => hp (h ▸ hqC)
        have hcard : (insert p (C.erase q)).card = k := by
          rw [Finset.card_insert_of_notMem (fun h => hp (Finset.mem_of_mem_erase h)),
            Finset.card_erase_of_mem hqC]
          omega
        have hUq : insert p (C.erase q) = U.erase q := by
          apply Finset.eq_of_subset_of_card_le
          · apply Finset.insert_subset (Finset.mem_erase.mpr ⟨hqp, hpU⟩)
            exact Finset.erase_subset_erase q hCU
          · rw [hcard, Finset.card_erase_of_mem (hCU hqC), hU]
            omega
        have hhits :
            Schedule k (insert p (C.erase q)) (ps.take (k - 1)) 0 (insert p (C.erase q)) := by
          apply schedule_hits hcard.le
          intro x hx
          rw [hUq, Finset.mem_erase]
          exact ⟨fun h => hq (h ▸ hx), hrest x (List.mem_of_mem_take hx)⟩
        obtain ⟨n, D, hs, hn⟩ := ih (ps.drop (k - 1)).length (by rw [List.length_drop]; omega)
          (ps.drop (k - 1)) rfl (insert p (C.erase q)) (hUq ▸ Finset.erase_subset q U) hcard.le
          fun x hx => hrest x (List.mem_of_mem_drop hx)
        have hserve := hhits.append hs
        rw [List.take_append_drop, zero_add] at hserve
        have hcons := Schedule.cons (Finset.mem_insert_self p _)
          (Finset.insert_subset_insert p (Finset.erase_subset q C)) hcard.le hserve
        rw [fault_of_notMem hp] at hcons
        refine ⟨_, D, hcons, ?_⟩
        rw [hcard, Nat.sub_self, Nat.mul_zero, Nat.add_zero, List.length_drop] at hn
        rw [Nat.mul_add, Nat.mul_one]
        have hn0 : ps.length < k - 1 → n = 0 := by
          intro hlt
          rw [List.drop_of_length_le (by omega)] at hs
          cases hs
          rfl
        by_cases hlt : ps.length < k - 1
        · rw [hn0 hlt]
          omega
        · omega

end OsProjects.Competitive
