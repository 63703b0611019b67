import OsProjects.Paging.List

/-!
# `list.c`: the lists as sequences

The two printing functions follow `next` and `prev`.  On a well-formed list they
print one sequence forwards and backwards, and every operation on the list is
the operation on that sequence.
-/

namespace OsProjects.Paging
open DoublyLinked

/-- The loop `while(temp != NULL) { printf("%d ", temp->data); temp = … }`. -/
def printLoop (h : Heap ℤ) (follow : Node → NodePtr) : ℕ → NodePtr → Except Fault String
  | _, none => .ok ""
  | 0, some _ => .error .endless
  | fuel + 1, some a => do
    let n ← deref h (some a)
    let rest ← printLoop h follow fuel (follow n)
    .ok (toString n.data ++ " " ++ rest)

def listPrint (h : Heap ℤ) (head : NodePtr) : Except Fault String := do
  let nodes ← printLoop h Cell.next h.length head
  .ok ("Forward: " ++ nodes ++ "\n")

def listReversePrint (h : Heap ℤ) (head : NodePtr) : Except Fault String :=
  if head = none then .ok ""
  else do
    let temp ← goToLast h h.length head
    let nodes ← printLoop h Cell.prev h.length temp
    .ok ("Reverse: " ++ nodes ++ "\n")

/-- The numbers as they are printed. -/
def line : List ℤ → String
  | [] => ""
  | x :: xs => toString x ++ " " ++ line xs

lemma printLoop_next {h : Heap ℤ} {q p : NodePtr} {l : List (ℕ × ℤ)} {fuel : ℕ}
    (hs : Seg h q p l none) (hfuel : l.length ≤ fuel) :
    printLoop h Cell.next fuel p = .ok (line (datas l)) := by
  induction l generalizing q p fuel with
  | nil =>
    obtain rfl : p = none := hs
    cases fuel <;> rfl
  | cons c l ih =>
    rw [List.length_cons] at hfuel
    obtain ⟨fuel, rfl⟩ := Nat.exists_eq_succ_of_ne_zero (by omega : fuel ≠ 0)
    obtain ⟨rfl, n, hn, hs⟩ := hs
    have hrest := ih hs (Nat.le_of_succ_le_succ hfuel)
    simp only [printLoop, deref_eq hn, bind, Except.bind, hrest]
    rfl

/-- Following `prev` from the last node goes over the list backwards, whatever comes after it. -/
lemma printLoop_prev {h : Heap ℤ} {p r : NodePtr} {l : List (ℕ × ℤ)} {fuel : ℕ}
    (hs : Seg h none p l r) (hfuel : l.length ≤ fuel) :
    printLoop h Cell.prev fuel (lastPtr none l) = .ok (line (datas l).reverse) := by
  induction l using List.reverseRecOn generalizing r fuel with
  | nil => cases fuel <;> rfl
  | append_singleton l c ih =>
    rw [List.length_append, List.length_singleton] at hfuel
    obtain ⟨fuel, rfl⟩ := Nat.exists_eq_succ_of_ne_zero (by omega : fuel ≠ 0)
    have hc := hs.getElem?_last
    obtain ⟨m, hl, -⟩ := Seg.append.mp hs
    have hrest := ih hl (Nat.le_of_succ_le_succ hfuel)
    rw [lastPtr_concat]
    simp only [printLoop, deref_eq hc, bind, Except.bind, hrest]
    rw [datas_append, List.reverse_append]
    rfl

theorem listPrint_spec {h : Heap ℤ} {p : NodePtr} {l : List (ℕ × ℤ)} (hl : IsList h p l) :
    listPrint h p = .ok ("Forward: " ++ line (datas l) ++ "\n") := by
  simp only [listPrint, printLoop_next hl.seg hl.length_le, bind, Except.bind]

theorem listReversePrint_spec {h : Heap ℤ} {p : NodePtr} {l : List (ℕ × ℤ)} (hl : IsList h p l)
    (hne : l ≠ []) :
    listReversePrint h p = .ok ("Reverse: " ++ line (datas l).reverse ++ "\n") := by
  have hpne : p ≠ none := fun h0 => hne (hl.eq_nil_iff.mp h0)
  have hprev := printLoop_prev hl.seg hl.length_le
  have hlast : goToLast h h.length p = .ok (lastPtr none l) := by
    cases l using List.reverseRecOn with
    | nil => exact absurd rfl hne
    | append_singleton l c =>
      have hlen := hl.length_le
      rw [List.length_append, List.length_singleton] at hlen
      rw [lastPtr_concat]
      exact goToLast_eq hl.seg hlen
  rw [listReversePrint, if_neg hpne]
  simp only [hlast, hprev, bind, Except.bind]

/-- `list_remove` takes away the first occurrence, if there is one. -/
lemma listRemove_erase {h : Heap ℤ} {p : NodePtr} {l : List (ℕ × ℤ)} (hl : IsList h p l) (x : ℤ) :
    ∃ h' p' l', listRemove h p x = .ok (h', p') ∧ IsList h' p' l' ∧
      datas l' = (datas l).erase x := by
  by_cases hx : x ∈ datas l
  · obtain ⟨d₁, d₂, hnot, hd, her⟩ := List.exists_erase_eq hx
    obtain ⟨l₁, l₂, rfl, hd₁, hd₂⟩ := List.map_eq_append_iff.mp hd
    obtain ⟨⟨a, y⟩, l₂, rfl, rfl, rfl⟩ := List.map_eq_cons_iff.mp hd₂
    obtain ⟨h', p', hrun, hl', -⟩ := listRemove_spec (x := y) hl (by rw [datas, hd₁]; exact hnot)
    refine ⟨h', p', l₁ ++ l₂, hrun, hl', ?_⟩
    rw [her, ← hd₁, datas_append]
    rfl
  · exact ⟨h, p, l, listRemove_absent hl hx, hl, (List.erase_of_not_mem hx).symm⟩

/-- The operations are those on sequences: they never fail on a well-formed list and leave a
well-formed one, which is printed forwards and backwards alike. -/
theorem list_operations {h : Heap ℤ} {p : NodePtr} {l : List (ℕ × ℤ)} (hl : IsList h p l) (x : ℤ) :
    (∃ h' p' l', listInsertHead h p x = .ok (h', p') ∧ IsList h' p' l' ∧
      datas l' = x :: datas l) ∧
    (∃ h' p' l', listInsertTail h p x = .ok (h', p') ∧ IsList h' p' l' ∧
      datas l' = datas l ++ [x]) ∧
    (∃ h' p' l', listRemoveHead h p = .ok (h', p') ∧ IsList h' p' l' ∧
      datas l' = (datas l).tail) ∧
    (∃ h' p' l', listRemove h p x = .ok (h', p') ∧ IsList h' p' l' ∧
      datas l' = (datas l).erase x) ∧
    listPrint h p = .ok ("Forward: " ++ line (datas l) ++ "\n") ∧
    listReversePrint h p =
      .ok (if datas l = [] then "" else "Reverse: " ++ line (datas l).reverse ++ "\n") := by
  refine ⟨?_, ?_, ?_, listRemove_erase hl x, listPrint_spec hl, ?_⟩
  · obtain ⟨h', hrun, hl'⟩ := listInsertHead_spec x hl
    exact ⟨h', _, _, hrun, hl', rfl⟩
  · obtain ⟨h', p', hrun, hl'⟩ := listInsertTail_spec x hl
    exact ⟨h', p', _, hrun, hl', datas_append l [(h.length, x)]⟩
  · cases l with
    | nil =>
      obtain rfl : p = none := hl.seg
      exact ⟨h, none, [], rfl, hl, rfl⟩
    | cons c l =>
      obtain ⟨h', p', hrun, hl', -⟩ := listRemoveHead_spec hl
      exact ⟨h', p', l, hrun, hl', rfl⟩
  · cases l with
    | nil =>
      obtain rfl : p = none := hl.seg
      rfl
    | cons c l =>
      rw [listReversePrint_spec hl (List.cons_ne_nil c l), datas_cons,
        if_neg (List.cons_ne_nil _ _)]

/-- The list 4, 6 of two nodes, the head allocated last. -/
theorem list_operations_two :
    listReversePrint [⟨6, none, some 1⟩, ⟨4, some 0, none⟩] (some 1) = .ok "Reverse: 6 4 \n" := by
  have hl : IsList ([⟨6, none, some 1⟩, ⟨4, some 0, none⟩] : Heap ℤ) (some 1) [(1, 4), (0, 6)] :=
    ⟨⟨rfl, some 0, rfl, rfl, none, rfl, rfl⟩, by decide⟩
  exact (list_operations hl 8).2.2.2.2.2

end OsProjects.Paging
