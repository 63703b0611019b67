import OsProjects.Library.DoublyLinked

/-!
# `list.c`: the doubly linked list of the LRU policy

The functions run over an explicit heap of nodes and return the heap they
leave.  What C leaves undefined ends in a `Fault`: a dereference of a pointer
that points to no node, a loop that never ends, a use of a variable that was
never set.  The loops carry a step budget of one step for each allocated node,
which a well-formed list cannot exhaust.
-/

namespace OsProjects.Paging
open DoublyLinked

inductive Fault
  | nullPointer
  | endless
  | indeterminate
  deriving DecidableEq

/-- `struct Node`, whose datum is an `int`. -/
abbrev Node := Cell ℤ

abbrev NodePtr := Option ℕ

def deref (h : Heap ℤ) (p : NodePtr) : Except Fault Node :=
  match p.bind fun a => h[a]? with
  | none => .error .nullPointer
  | some n => .ok n

/-- An assignment to a field of `*p`. -/
def assign (h : Heap ℤ) (p : NodePtr) (f : Node → Node) : Except Fault (Heap ℤ) :=
  match p with
  | none => .error .nullPointer
  | some a =>
    match h[a]? with
    | none => .error .nullPointer
    | some n => .ok (h.set a (f n))

def listNewNode (h : Heap ℤ) (x : ℤ) : Heap ℤ × NodePtr :=
  (h ++ [⟨x, none, none⟩], some h.length)

/-- `while(ret->next != NULL) ret = ret->next;` -/
def goToLast (h : Heap ℤ) : ℕ → NodePtr → Except Fault NodePtr
  | 0, _ => .error .endless
  | fuel + 1, ret => do
    let n ← deref h ret
    if n.next = none then .ok ret else goToLast h fuel n.next

def listRemoveTail (h : Heap ℤ) (head : NodePtr) : Except Fault (Heap ℤ × NodePtr) :=
  if head = none then .ok (h, none)
  else do
    let ret ← goToLast h h.length head
    let n ← deref h ret
    let h ← assign h n.prev fun m => { m with next := none }
    .ok (h, head)

def listRemoveHead (h : Heap ℤ) (head : NodePtr) : Except Fault (Heap ℤ × NodePtr) :=
  if head = none then .ok (h, none)
  else do
    let n ← deref h head
    if n.next = none then .ok (h, n.next)
    else do
      let h ← assign h n.next fun m => { m with prev := none }
      .ok (h, n.next)

/-- The loop of `list_remove`, at the node `ret`. -/
def listRemoveFrom (h : Heap ℤ) (head : NodePtr) (data : ℤ) :
    ℕ → NodePtr → Except Fault (Heap ℤ × NodePtr)
  | _, none => .ok (h, head)
  | 0, some _ => .error .endless
  | fuel + 1, some a => do
    let n ← deref h (some a)
    if data = n.data then
      if some a = head then listRemoveHead h head
      else if n.next = none then listRemoveTail h head
      else do
        let h ← if n.prev = none then .ok h else assign h n.prev fun m => { m with next := n.next }
        -- the fields of `ret` are read again after the first assignment
        let n ← deref h (some a)
        let h ← if n.next = none then .ok h else assign h n.next fun m => { m with prev := n.prev }
        .ok (h, head)
    else listRemoveFrom h head data fuel n.next

def listRemove (h : Heap ℤ) (head : NodePtr) (data : ℤ) : Except Fault (Heap ℤ × NodePtr) :=
  if head = none then .ok (h, none) else listRemoveFrom h head data h.length head

def listInsertHead (h : Heap ℤ) (head : NodePtr) (x : ℤ) : Except Fault (Heap ℤ × NodePtr) := do
  let (h, newNode) := listNewNode h x
  if head = none then .ok (h, newNode)
  else do
    let h ← assign h head fun m => { m with prev := newNode }
    let h ← assign h newNode fun m => { m with next := head }
    .ok (h, newNode)

def listInsertTail (h : Heap ℤ) (head : NodePtr) (x : ℤ) : Except Fault (Heap ℤ × NodePtr) := do
  let (h, newNode) := listNewNode h x
  if head = none then .ok (h, newNode)
  else do
    let temp ← goToLast h h.length head
    let h ← assign h temp fun m => { m with next := newNode }
    let h ← assign h newNode fun m => { m with prev := temp }
    .ok (h, head)

/-! ## What the functions do to a well-formed list -/

lemma deref_eq {h : Heap ℤ} {a : ℕ} {n : Node} (hn : h[a]? = some n) :
    deref h (some a) = .ok n := by
  simp [deref, hn]

lemma assign_eq {h : Heap ℤ} {a : ℕ} {n : Node} (hn : h[a]? = some n) (f : Node → Node) :
    assign h (some a) f = .ok (h.set a (f n)) := by
  simp [assign, hn]

lemma goToLast_eq {h : Heap ℤ} {q p : NodePtr} {l : List (ℕ × ℤ)} {c : ℕ × ℤ} {fuel : ℕ}
    (hs : Seg h q p (l ++ [c]) none) (hfuel : l.length < fuel) :
    goToLast h fuel p = .ok (some c.1) := by
  induction l generalizing q p fuel with
  | nil =>
    obtain ⟨fuel, rfl⟩ := Nat.exists_eq_succ_of_ne_zero (by omega : fuel ≠ 0)
    obtain ⟨rfl, n, hn, rfl⟩ := hs
    simp [goToLast, deref_eq hn, bind, Except.bind]
  | cons d l ih =>
    obtain ⟨fuel, rfl⟩ := Nat.exists_eq_succ_of_ne_zero (by omega : fuel ≠ 0)
    obtain ⟨rfl, n, hn, hs⟩ := hs
    have hne : n ≠ none := by
      rintro rfl
      cases l <;> simp [Seg] at hs
    simp only [goToLast, deref_eq hn, bind, Except.bind, if_neg hne]
    exact ih hs (by simpa using hfuel)

theorem listRemoveTail_spec {h : Heap ℤ} {p : NodePtr} {l : List (ℕ × ℤ)} {b c : ℕ × ℤ}
    (hl : IsList h p (l ++ [b, c])) :
    ∃ h', listRemoveTail h p = .ok (h', p) ∧ IsList h' p (l ++ [b]) ∧ h'.length = h.length := by
  have hs : Seg h none p ((l ++ [b]) ++ [c]) none := by simpa using hl.seg
  have hnd : (addrs (l ++ [b]) ++ [c.1]).Nodup := by simpa using hl.nodup
  have hfuel : (l ++ [b]).length < h.length := by
    have := hl.length_le
    simp only [List.length_append, List.length_cons, List.length_nil] at this ⊢
    omega
  obtain ⟨m, hb, -⟩ := Seg.append.mp hs
  have hc := hs.getElem?_last
  rw [lastPtr_concat] at hc
  have hbn := hb.getElem?_last
  have hpne : p ≠ none := fun h0 => by simpa using hl.eq_nil_iff.mp h0
  refine ⟨_, ?_, ⟨hb.setNext (s := none) ?_ hbn, ?_⟩, List.length_set⟩
  · rw [listRemoveTail, if_neg hpne, goToLast_eq hs hfuel]
    simp only [bind, Except.bind, deref_eq hc, assign_eq hbn]
  · have hnd' := (List.nodup_append.mp hnd).1
    rw [addrs_append] at hnd'
    have := (List.nodup_append.mp hnd').2.2
    intro hmem
    exact this _ hmem _ (by simp) rfl
  · exact (List.nodup_append.mp hnd).1

/-- On a one-node list the tail has no predecessor, and `ret->prev->next` dereferences `NULL`. -/
theorem listRemoveTail_singleton {h : Heap ℤ} {p : NodePtr} {c : ℕ × ℤ} (hl : IsList h p [c]) :
    listRemoveTail h p = .error .nullPointer := by
  have hfuel : 0 < h.length := hl.length_le
  have hpne : p ≠ none := fun h0 => by simpa using hl.eq_nil_iff.mp h0
  have hc := hl.seg.getElem?_last (l := [])
  rw [listRemoveTail, if_neg hpne, goToLast_eq (l := []) hl.seg hfuel]
  simp only [bind, Except.bind, deref_eq hc, lastPtr_nil]
  rfl

theorem listRemoveHead_spec {h : Heap ℤ} {p : NodePtr} {l : List (ℕ × ℤ)} {c : ℕ × ℤ}
    (hl : IsList h p (c :: l)) :
    ∃ h' p', listRemoveHead h p = .ok (h', p') ∧ IsList h' p' l ∧ h'.length = h.length := by
  obtain ⟨rfl, n, hn, hs⟩ := hl.seg
  have hnd := (List.nodup_cons.mp hl.nodup).2
  cases l with
  | nil =>
    obtain rfl : n = none := hs
    exact ⟨h, none, by simp [listRemoveHead, deref_eq hn, bind, Except.bind], IsList.nil h, rfl⟩
  | cons d l =>
    obtain ⟨b, y⟩ := d
    have hs' := hs
    obtain ⟨rfl, m, hm, -⟩ := hs'
    refine ⟨_, some b, ?_, ⟨hs.setPrev (s := none) (List.nodup_cons.mp hnd).1 hm, hnd⟩,
      List.length_set⟩
    simp [listRemoveHead, deref_eq hn, bind, Except.bind, assign_eq hm]

theorem listInsertHead_spec {h : Heap ℤ} {p : NodePtr} {l : List (ℕ × ℤ)} (x : ℤ)
    (hl : IsList h p l) :
    ∃ h', listInsertHead h p x = .ok (h', some h.length) ∧
      IsList h' (some h.length) ((h.length, x) :: l) := by
  have hfresh : h.length ∉ addrs l := fun hm => absurd (hl.seg.lt_length _ hm) (lt_irrefl _)
  have hnd : (addrs ((h.length, x) :: l)).Nodup := List.nodup_cons.mpr ⟨hfresh, hl.nodup⟩
  have hs := hl.seg.alloc ⟨x, none, none⟩
  have hnew : (h ++ [(⟨x, none, none⟩ : Node)])[h.length]? = some ⟨x, none, none⟩ := by simp
  cases l with
  | nil =>
    obtain rfl : p = none := hl.seg
    exact ⟨_, by simp [listInsertHead, listNewNode], ⟨rfl, none, hnew, rfl⟩, hnd⟩
  | cons d l =>
    obtain ⟨b, y⟩ := d
    obtain ⟨rfl, m, hm, -⟩ := hl.seg
    have hb : b ≠ h.length := fun e => hfresh (by simp [e])
    have hbl : b ∉ addrs l := (List.nodup_cons.mp hl.nodup).1
    have hm' : (h ++ [(⟨x, none, none⟩ : Node)])[b]? = some ⟨y, m, none⟩ := by
      rw [List.getElem?_append_left (hl.seg.lt_length b (by simp)), hm]
    have hs1 := hs.setPrev (s := some h.length) hbl hm'
    have hnew1 : ((h ++ [(⟨x, none, none⟩ : Node)]).set b
        { (⟨y, m, none⟩ : Node) with prev := some h.length })[h.length]? =
          some ⟨x, none, none⟩ := by
      rw [List.getElem?_set_ne hb, hnew]
    refine ⟨_, ?_, ⟨rfl, some b, List.getElem?_set_self ?_, hs1.set _ hfresh⟩, hnd⟩
    · simp only [listInsertHead, listNewNode, bind, Except.bind, reduceCtorEq, if_false,
        assign_eq hm', assign_eq hnew1]
    · exact (List.getElem?_eq_some_iff.mp hnew1).1

lemma listRemoveFrom_absent {h : Heap ℤ} {head q p : NodePtr} {l : List (ℕ × ℤ)} {x : ℤ}
    {fuel : ℕ} (hs : Seg h q p l none) (hx : x ∉ datas l) (hfuel : l.length ≤ fuel) :
    listRemoveFrom h head x fuel p = .ok (h, head) := by
  induction l generalizing q p fuel with
  | nil =>
    obtain rfl : p = none := hs
    cases fuel <;> rfl
  | cons c l ih =>
    obtain ⟨fuel, rfl⟩ := Nat.exists_eq_succ_of_ne_zero (by simp at hfuel; omega : fuel ≠ 0)
    obtain ⟨rfl, n, hn, hs⟩ := hs
    simp only [datas_cons, List.mem_cons, not_or] at hx
    simp only [listRemoveFrom, deref_eq hn, bind, Except.bind, if_neg hx.1]
    exact ih hs hx.2 (by simpa using hfuel)

/-- The loop removes the first node with the datum `x`, after walking over `l₁`. -/
lemma listRemoveFrom_spec {h : Heap ℤ} {head : NodePtr} {l₁ l₂ : List (ℕ × ℤ)} {a : ℕ} {x : ℤ}
    (hl : IsList h head (l₁ ++ (a, x) :: l₂)) {j k : List (ℕ × ℤ)} {q p : NodePtr} {fuel : ℕ}
    (hk : l₁ = j ++ k) (hs : Seg h q p (k ++ (a, x) :: l₂) none) (hx : x ∉ datas k)
    (hfuel : k.length < fuel) :
    ∃ h' p', listRemoveFrom h head x fuel p = .ok (h', p') ∧ IsList h' p' (l₁ ++ l₂) ∧
      h'.length = h.length := by
  induction k generalizing j q p fuel with
  | cons c k ih =>
    obtain ⟨fuel, rfl⟩ := Nat.exists_eq_succ_of_ne_zero (by omega : fuel ≠ 0)
    obtain ⟨rfl, n, hn, hs⟩ := hs
    simp only [datas_cons, List.mem_cons, not_or] at hx
    simp only [listRemoveFrom, deref_eq hn, bind, Except.bind, if_neg hx.1]
    exact ih (j := j ++ [c]) (by simpa using hk) hs hx.2 (by simpa using hfuel)
  | nil =>
    obtain ⟨fuel, rfl⟩ := Nat.exists_eq_succ_of_ne_zero (by omega : fuel ≠ 0)
    obtain ⟨rfl, -, -, -⟩ := hs
    obtain ⟨m, hs₁, hm, n, hn, hs₂⟩ := Seg.append.mp hl.seg
    have hnd := hl.nodup
    simp only [addrs_append, addrs_cons] at hnd
    obtain ⟨hnd₁, hnd₂, hdisj⟩ := List.nodup_append.mp hnd
    have ha₁ : a ∉ addrs l₁ := fun h' => hdisj a h' a (by simp) rfl
    have ha₂ : a ∉ addrs l₂ := (List.nodup_cons.mp hnd₂).1
    simp only [listRemoveFrom, deref_eq hn, bind, Except.bind, if_true]
    -- the code tells apart the head, the last node and one in the middle
    cases l₁ using List.reverseRecOn with
    | nil =>
      -- the removed node is the head
      obtain rfl : head = some a := hl.seg.1
      simpa using listRemoveHead_spec hl
    | append_singleton l₁ b =>
      have hane : some a ≠ head := by
        rintro rfl
        cases l₁ with
        | nil => exact ha₁ (by simpa [Seg] using hl.seg.1)
        | cons d l₁ => exact ha₁ (by simpa [Seg] using Or.inl hl.seg.1)
      rw [if_neg hane]
      cases l₂ with
      | nil =>
        -- the removed node is the last one
        obtain rfl : n = none := hs₂
        obtain ⟨h', hrun, hl', hlen⟩ :=
          listRemoveTail_spec (l := l₁) (b := b) (c := (a, x)) (by simpa using hl)
        exact ⟨h', head, by simpa using hrun, by simpa using hl', hlen⟩
      | cons d l₂ =>
        obtain ⟨b, w⟩ := b
        obtain ⟨e, y⟩ := d
        obtain ⟨rfl, m, hk', -⟩ := id hs₂
        have hb := hs₁.getElem?_last
        have hab : b ≠ a := fun hba => ha₁ (by simp [hba])
        have hbe : b ≠ e := fun hbe => hdisj b (by simp) e (by simp) hbe
        have hn' : (h.set b ⟨w, some e, lastPtr none l₁⟩)[a]? =
            some ⟨x, some e, some b⟩ := by
          rw [List.getElem?_set_ne hab, hn, lastPtr_concat]
        have hk'' : (h.set b ⟨w, some e, lastPtr none l₁⟩)[e]? = some ⟨y, m, some a⟩ := by
          rw [List.getElem?_set_ne hbe, hk']
        -- both neighbours exist and are linked to each other
        refine ⟨_, head, ?_, hl.unlink hb hk', by simp⟩
        simp only [lastPtr_concat, reduceCtorEq, if_false, assign_eq hb, deref_eq hn',
          assign_eq hk'']

/-- `list_remove` of a datum that is in the list. -/
theorem listRemove_spec {h : Heap ℤ} {p : NodePtr} {l₁ l₂ : List (ℕ × ℤ)} {a : ℕ} {x : ℤ}
    (hl : IsList h p (l₁ ++ (a, x) :: l₂)) (hx : x ∉ datas l₁) :
    ∃ h' p', listRemove h p x = .ok (h', p') ∧ IsList h' p' (l₁ ++ l₂) ∧
      h'.length = h.length := by
  have hlen := hl.length_le
  simp only [List.length_append, List.length_cons] at hlen
  have hpne : p ≠ none := fun h0 => by simpa using hl.eq_nil_iff.mp h0
  rw [listRemove, if_neg hpne]
  exact listRemoveFrom_spec hl (j := []) rfl hl.seg hx (by omega)

/-- `list_remove` of a datum that is not in the list. -/
theorem listRemove_absent {h : Heap ℤ} {p : NodePtr} {l : List (ℕ × ℤ)} {x : ℤ}
    (hl : IsList h p l) (hx : x ∉ datas l) : listRemove h p x = .ok (h, p) := by
  by_cases hp : p = none
  · simp [listRemove, hp]
  · rw [listRemove, if_neg hp]
    exact listRemoveFrom_absent hl.seg hx hl.length_le

theorem listInsertTail_spec {h : Heap ℤ} {p : NodePtr} {l : List (ℕ × ℤ)} (x : ℤ)
    (hl : IsList h p l) :
    ∃ h' p', listInsertTail h p x = .ok (h', p') ∧ IsList h' p' (l ++ [(h.length, x)]) := by
  have hfresh : h.length ∉ addrs l := fun hm => absurd (hl.seg.lt_length _ hm) (lt_irrefl _)
  have hnd : (addrs (l ++ [(h.length, x)])).Nodup := by
    rw [addrs_append]
    refine List.nodup_append.mpr ⟨hl.nodup, List.nodup_singleton _, fun a ha b hb hab => ?_⟩
    obtain rfl : b = h.length := by simpa using hb
    exact hfresh (hab ▸ ha)
  have hs := hl.seg.alloc ⟨x, none, none⟩
  have hnew : (h ++ [(⟨x, none, none⟩ : Node)])[h.length]? = some ⟨x, none, none⟩ := by simp
  cases l using List.reverseRecOn with
  | nil =>
    obtain rfl : p = none := hl.seg
    exact ⟨_, some h.length, by simp [listInsertTail, listNewNode], ⟨rfl, none, hnew, rfl⟩, hnd⟩
  | append_singleton l c =>
    obtain ⟨b, y⟩ := c
    have hpne : p ≠ none := fun h0 => by simpa using hl.eq_nil_iff.mp h0
    have hb := hs.getElem?_last
    have hlast : goToLast (h ++ [⟨x, none, none⟩]) (h ++ [(⟨x, none, none⟩ : Node)]).length p =
        .ok (some b) := by
      refine goToLast_eq (c := (b, y)) hs ?_
      have := hl.length_le
      simp only [List.length_append, List.length_cons, List.length_nil] at this ⊢
      omega
    have hbn : b ≠ h.length := fun e => hfresh (by simp [e])
    have hb₁ : b ∉ addrs l := by
      have := hl.nodup
      rw [addrs_append] at this
      exact fun hmem => (List.nodup_append.mp this).2.2 b hmem b (by simp) rfl
    have hs1 := hs.setNext (s := some h.length) hb₁ hb
    have hnew1 : ((h ++ [(⟨x, none, none⟩ : Node)]).set b
        ⟨y, some h.length, lastPtr none l⟩)[h.length]? = some ⟨x, none, none⟩ := by
      rw [List.getElem?_set_ne hbn, hnew]
    have hlt := (List.getElem?_eq_some_iff.mp hnew1).1
    refine ⟨_, p, ?_, ⟨Seg.append.mpr
      ⟨some h.length, hs1.set ⟨x, none, some b⟩ hfresh, rfl, none, ?_, rfl⟩, hnd⟩⟩
    · simp only [listInsertTail, listNewNode, bind, Except.bind, if_neg hpne, hlast, assign_eq hb,
        assign_eq hnew1]
    · rw [lastPtr_concat]
      exact List.getElem?_set_self hlt

end OsProjects.Paging
