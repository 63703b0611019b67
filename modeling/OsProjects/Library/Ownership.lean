import Mathlib

/-!
# Owners of the units of a resource

The owners that are alive own lists of units.  Units in use are owned once; if
nothing leaks they are all owned.  References between the owners are counted in
the second part.
-/

namespace OsProjects.Ownership

variable {ι β : Type}

/-- Every owned unit is in use, and it is owned once. -/
structure Separate (alive : ι → Prop) (owned : ι → List β) (used : β → Prop) : Prop where
  used : ∀ i, alive i → ∀ b ∈ owned i, used b
  nodup : ∀ i, alive i → (owned i).Nodup
  eq_of_mem : ∀ i j b, alive i → alive j → b ∈ owned i → b ∈ owned j → i = j

def NoLeak (alive : ι → Prop) (owned : ι → List β) (used : β → Prop) : Prop :=
  ∀ b, used b → ∃ i, alive i ∧ b ∈ owned i

section Change
variable {alive alive' : ι → Prop} {owned owned' : ι → List β} {used used' : β → Prop} {k : ι}

lemma Separate.congr (h : Separate alive owned used) (halive : ∀ i, alive' i ↔ alive i)
    (howned : ∀ i, alive i → owned' i = owned i) (hused : ∀ b, used b → used' b) :
    Separate alive' owned' used' where
  used := by
    intro i hi b hb
    rw [halive] at hi
    rw [howned i hi] at hb
    exact hused b (h.used i hi b hb)
  nodup := by
    intro i hi
    rw [halive] at hi
    rw [howned i hi]
    exact h.nodup i hi
  eq_of_mem := by
    intro i j b hi hj hbi hbj
    rw [halive] at hi hj
    rw [howned i hi] at hbi
    rw [howned j hj] at hbj
    exact h.eq_of_mem i j b hi hj hbi hbj

lemma NoLeak.congr (h : NoLeak alive owned used) (halive : ∀ i, alive' i ↔ alive i)
    (howned : ∀ i, alive i → owned' i = owned i) (hused : ∀ b, used' b → used b) :
    NoLeak alive' owned' used' := by
  intro b hb
  obtain ⟨i, hi, hbi⟩ := h b (hused b hb)
  refine ⟨i, (halive i).mpr hi, ?_⟩
  rwa [howned i hi]

/-- A new owner takes units that were not in use. -/
lemma Separate.take (h : Separate alive owned used) (hk : ¬ alive k)
    (halive : ∀ i, alive' i ↔ alive i ∨ i = k) (howned : ∀ i, alive i → owned' i = owned i)
    (hnodup : (owned' k).Nodup) (hfree : ∀ b ∈ owned' k, ¬ used b)
    (hused : ∀ b, used' b ↔ used b ∨ b ∈ owned' k) : Separate alive' owned' used' where
  used := by
    intro i hi b hb
    rw [hused]
    rcases (halive i).mp hi with hi | rfl
    · rw [howned i hi] at hb
      exact Or.inl (h.used i hi b hb)
    · exact Or.inr hb
  nodup := by
    intro i hi
    rcases (halive i).mp hi with hi | rfl
    · rw [howned i hi]
      exact h.nodup i hi
    · exact hnodup
  eq_of_mem := by
    intro i j b hi hj hbi hbj
    rcases (halive i).mp hi with hi | rfl <;> rcases (halive j).mp hj with hj | rfl
    · rw [howned i hi] at hbi
      rw [howned j hj] at hbj
      exact h.eq_of_mem i j b hi hj hbi hbj
    · rw [howned i hi] at hbi
      exact absurd (h.used i hi b hbi) (hfree b hbj)
    · rw [howned j hj] at hbj
      exact absurd (h.used j hj b hbj) (hfree b hbi)
    · rfl

lemma NoLeak.take (h : NoLeak alive owned used) (halive : ∀ i, alive' i ↔ alive i ∨ i = k)
    (howned : ∀ i, alive i → owned' i = owned i)
    (hused : ∀ b, used' b → used b ∨ b ∈ owned' k) : NoLeak alive' owned' used' := by
  intro b hb
  rcases hused b hb with hb | hb
  · obtain ⟨i, hi, hbi⟩ := h b hb
    refine ⟨i, (halive i).mpr (Or.inl hi), ?_⟩
    rwa [howned i hi]
  · exact ⟨k, (halive k).mpr (Or.inr rfl), hb⟩

/-- An owner goes, and with it its units. -/
lemma Separate.release (h : Separate alive owned used) (hk : alive k)
    (halive : ∀ i, alive' i ↔ alive i ∧ i ≠ k) (howned : ∀ i, alive' i → owned' i = owned i)
    (hused : ∀ b, used b → b ∉ owned k → used' b) : Separate alive' owned' used' where
  used := by
    intro i hi b hb
    rw [howned i hi] at hb
    obtain ⟨hi, hik⟩ := (halive i).mp hi
    exact hused b (h.used i hi b hb) fun hbk => hik (h.eq_of_mem i k b hi hk hb hbk)
  nodup := by
    intro i hi
    rw [howned i hi]
    exact h.nodup i ((halive i).mp hi).1
  eq_of_mem := by
    intro i j b hi hj hbi hbj
    rw [howned i hi] at hbi
    rw [howned j hj] at hbj
    exact h.eq_of_mem i j b ((halive i).mp hi).1 ((halive j).mp hj).1 hbi hbj

lemma NoLeak.release (h : NoLeak alive owned used)
    (halive : ∀ i, alive' i ↔ alive i ∧ i ≠ k) (howned : ∀ i, alive' i → owned' i = owned i)
    (hused : ∀ b, used' b → used b ∧ b ∉ owned k) : NoLeak alive' owned' used' := by
  intro b hb
  obtain ⟨hb, hbk⟩ := hused b hb
  obtain ⟨i, hi, hbi⟩ := h b hb
  have hik : i ≠ k := fun hik => hbk (hik ▸ hbi)
  have hi' := (halive i).mpr ⟨hi, hik⟩
  refine ⟨i, hi', ?_⟩
  rwa [howned i hi']

end Change

/-! ## References -/

section References
variable [DecidableEq ι]

lemma count_eraseIdx {l : List ι} {k : ℕ} {a : ι} (h : l[k]? = some a) (b : ι) :
    (l.eraseIdx k).count b + (if b = a then 1 else 0) = l.count b := by
  obtain ⟨hk, ha⟩ := List.getElem?_eq_some_iff.mp h
  rw [List.eraseIdx_eq_take_drop_succ]
  conv_rhs => rw [← List.take_append_drop k l, List.drop_eq_getElem_cons hk, ha]
  rw [List.count_append, List.count_append, List.count_cons]
  simp only [beq_iff_eq, eq_comm (a := a)]
  omega

/-- How often `i` is named in the lists of some owners. -/
def references (dirs : Finset ι) (names : ι → List ι) (i : ι) : ℕ :=
  ∑ d ∈ dirs, (names d).count i

variable {dirs : Finset ι} {names names' : ι → List ι} {c i : ι}

lemma references_congr (h : ∀ d ∈ dirs, names' d = names d) (i : ι) :
    references dirs names' i = references dirs names i := by
  unfold references
  apply Finset.sum_congr rfl
  intro d hd
  rw [h d hd]

/-- Only the list of `c` changes. -/
lemma references_change (hc : c ∈ dirs) (h : ∀ d ∈ dirs, d ≠ c → names' d = names d) (i : ι) :
    references dirs names' i + (names c).count i =
      references dirs names i + (names' c).count i := by
  have hrest : ∑ d ∈ dirs.erase c, (names' d).count i = ∑ d ∈ dirs.erase c, (names d).count i := by
    apply Finset.sum_congr rfl
    intro d hd
    rw [h d (Finset.mem_of_mem_erase hd) (Finset.ne_of_mem_erase hd)]
  unfold references
  rw [← Finset.add_sum_erase dirs _ hc, ← Finset.add_sum_erase dirs (fun d => (names d).count i) hc,
    hrest]
  omega

lemma count_le_references (hc : c ∈ dirs) (i : ι) :
    (names c).count i ≤ references dirs names i :=
  Finset.single_le_sum (fun d _ => Nat.zero_le ((names d).count i)) hc

lemma references_eq_zero (h : ∀ d ∈ dirs, i ∉ names d) : references dirs names i = 0 := by
  apply Finset.sum_eq_zero
  intro d hd
  exact List.count_eq_zero_of_not_mem (h d hd)

lemma notMem_of_references_eq_zero (h : references dirs names i = 0) {d : ι} (hd : d ∈ dirs) :
    i ∉ names d := by
  intro hi
  have hpos := List.count_pos_iff.mpr hi
  have hle : (names d).count i ≤ references dirs names i := count_le_references hd i
  omega

lemma references_le {n : ℕ} (h : ∀ d ∈ dirs, (names d).length ≤ n) (i : ι) :
    references dirs names i ≤ dirs.card * n := by
  unfold references
  rw [← smul_eq_mul]
  apply Finset.sum_le_card_nsmul
  intro d hd
  exact List.count_le_length.trans (h d hd)

end References

end OsProjects.Ownership
