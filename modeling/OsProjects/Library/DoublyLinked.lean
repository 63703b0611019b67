import Mathlib

/-!
# Doubly linked cells on an append-only heap

A heap is the list of the cells allocated so far, the address of a cell being
its position; allocation appends, and nothing is ever freed.  A pointer is an
`Option ℕ`, with `none` for the null pointer.

`Seg h q p l r` says that following `next` from the pointer `p` visits exactly
the cells listed in `l` (address and datum) and then arrives at `r`, every
visited cell having the previously visited one as its `prev`, the first one
having `q`.  A list is such a segment from null to null whose addresses are
distinct.
-/

namespace OsProjects.DoublyLinked

/-- One cell of a doubly linked list. -/
structure Cell (α : Type*) where
  data : α
  next : Option ℕ
  prev : Option ℕ
  deriving DecidableEq

abbrev Heap (α : Type*) := List (Cell α)

variable {α : Type*}

def Seg (h : Heap α) : Option ℕ → Option ℕ → List (ℕ × α) → Option ℕ → Prop
  | _, p, [], r => p = r
  | q, p, (a, x) :: l, r => p = some a ∧ ∃ n, h[a]? = some ⟨x, n, q⟩ ∧ Seg h (some a) n l r

/-- The addresses of a listed segment. -/
def addrs (l : List (ℕ × α)) : List ℕ := l.map Prod.fst

/-- The data of a listed segment. -/
def datas (l : List (ℕ × α)) : List α := l.map Prod.snd

/-- The pointer to the last cell of `l`, or `q` when `l` is empty. -/
def lastPtr (q : Option ℕ) (l : List (ℕ × α)) : Option ℕ :=
  match l.getLast? with
  | none => q
  | some c => some c.1

/-- `p` points to a well-formed list with the cells `l`. -/
structure IsList (h : Heap α) (p : Option ℕ) (l : List (ℕ × α)) : Prop where
  seg : Seg h none p l none
  nodup : (addrs l).Nodup

/-! ## Addresses -/

@[simp] lemma addrs_nil : addrs ([] : List (ℕ × α)) = [] := rfl

@[simp] lemma addrs_cons (c : ℕ × α) (l : List (ℕ × α)) : addrs (c :: l) = c.1 :: addrs l := rfl

@[simp] lemma addrs_append (l l' : List (ℕ × α)) : addrs (l ++ l') = addrs l ++ addrs l' :=
  List.map_append

@[simp] lemma datas_nil : datas ([] : List (ℕ × α)) = [] := rfl

@[simp] lemma datas_cons (c : ℕ × α) (l : List (ℕ × α)) : datas (c :: l) = c.2 :: datas l := rfl

@[simp] lemma datas_append (l l' : List (ℕ × α)) : datas (l ++ l') = datas l ++ datas l' :=
  List.map_append

@[simp] lemma lastPtr_nil (q : Option ℕ) : lastPtr q ([] : List (ℕ × α)) = q := rfl

@[simp] lemma lastPtr_concat (q : Option ℕ) (l : List (ℕ × α)) (c : ℕ × α) :
    lastPtr q (l ++ [c]) = some c.1 := by
  simp [lastPtr]

lemma lastPtr_cons (q : Option ℕ) (c : ℕ × α) (l : List (ℕ × α)) :
    lastPtr q (c :: l) = lastPtr (some c.1) l := by
  cases l using List.reverseRecOn with
  | nil => rfl
  | append_singleton l d => rw [← List.cons_append, lastPtr_concat, lastPtr_concat]

/-! ## Segments -/

lemma Seg.append {h : Heap α} {q p r : Option ℕ} {l l' : List (ℕ × α)} :
    Seg h q p (l ++ l') r ↔ ∃ m, Seg h q p l m ∧ Seg h (lastPtr q l) m l' r := by
  induction l generalizing q p with
  | nil => simp [Seg]
  | cons c l ih =>
    obtain ⟨a, x⟩ := c
    simp only [List.cons_append, Seg, ih, lastPtr_cons]
    constructor
    · rintro ⟨hp, n, hn, m, hm, hr⟩
      exact ⟨m, ⟨hp, n, hn, hm⟩, hr⟩
    · rintro ⟨m, ⟨hp, n, hn, hm⟩, hr⟩
      exact ⟨hp, n, hn, m, hm, hr⟩

/-- The cells of a segment are allocated. -/
lemma Seg.lt_length {h : Heap α} {q p r : Option ℕ} {l : List (ℕ × α)} (hs : Seg h q p l r) :
    ∀ a ∈ addrs l, a < h.length := by
  induction l generalizing q p with
  | nil => simp
  | cons c l ih =>
    obtain ⟨b, x⟩ := c
    obtain ⟨-, n, hn, hs⟩ := hs
    intro a ha
    rcases List.mem_cons.mp ha with rfl | ha
    · exact (List.getElem?_eq_some_iff.mp hn).1
    · exact ih hs a ha

/-- A segment only depends on its own cells. -/
lemma Seg.congr {h h' : Heap α} {q p r : Option ℕ} {l : List (ℕ × α)}
    (hc : ∀ a ∈ addrs l, h'[a]? = h[a]?) (hs : Seg h q p l r) : Seg h' q p l r := by
  induction l generalizing q p with
  | nil => exact hs
  | cons c l ih =>
    obtain ⟨b, x⟩ := c
    obtain ⟨hp, n, hn, hs⟩ := hs
    refine ⟨hp, n, ?_, ih (fun a ha => hc a (List.mem_cons_of_mem _ ha)) hs⟩
    rw [hc b List.mem_cons_self, hn]

lemma Seg.set {h : Heap α} {q p r : Option ℕ} {l : List (ℕ × α)} {a : ℕ} (c : Cell α)
    (ha : a ∉ addrs l) (hs : Seg h q p l r) : Seg (h.set a c) q p l r :=
  hs.congr fun b hb => List.getElem?_set_ne (by rintro rfl; exact ha hb)

lemma Seg.alloc {h : Heap α} {q p r : Option ℕ} {l : List (ℕ × α)} (c : Cell α)
    (hs : Seg h q p l r) : Seg (h ++ [c]) q p l r :=
  hs.congr fun a ha => List.getElem?_append_left (hs.lt_length a ha)

/-- Storing into `prev` of the first cell gives the segment that predecessor. -/
lemma Seg.setPrev {h : Heap α} {q s p r : Option ℕ} {a : ℕ} {x : α} {l : List (ℕ × α)}
    {c : Cell α} (hs : Seg h q p ((a, x) :: l) r) (ha : a ∉ addrs l) (hc : h[a]? = some c) :
    Seg (h.set a { c with prev := s }) s p ((a, x) :: l) r := by
  obtain ⟨hp, n, hn, hs⟩ := hs
  obtain rfl : c = ⟨x, n, q⟩ := Option.some.inj (hc.symm.trans hn)
  have hlt : a < h.length := (List.getElem?_eq_some_iff.mp hc).1
  exact ⟨hp, n, List.getElem?_set_self hlt, hs.set _ ha⟩

/-- Storing into `next` of the last cell redirects the end of the segment. -/
lemma Seg.setNext {h : Heap α} {q p r s : Option ℕ} {a : ℕ} {x : α} {l : List (ℕ × α)}
    {c : Cell α} (hs : Seg h q p (l ++ [(a, x)]) r) (ha : a ∉ addrs l) (hc : h[a]? = some c) :
    Seg (h.set a { c with next := s }) q p (l ++ [(a, x)]) s := by
  obtain ⟨m, hl, hm, n, hn, hr⟩ := Seg.append.mp hs
  obtain rfl : c = ⟨x, n, lastPtr q l⟩ := Option.some.inj (hc.symm.trans hn)
  have hlt : a < h.length := (List.getElem?_eq_some_iff.mp hc).1
  exact Seg.append.mpr ⟨m, hl.set _ ha, hm, s, List.getElem?_set_self hlt, rfl⟩

/-- The cell at the end of a segment. -/
lemma Seg.getElem?_last {h : Heap α} {q p r : Option ℕ} {a : ℕ} {x : α} {l : List (ℕ × α)}
    (hs : Seg h q p (l ++ [(a, x)]) r) : h[a]? = some ⟨x, r, lastPtr q l⟩ := by
  obtain ⟨m, -, -, n, hn, rfl⟩ := Seg.append.mp hs
  exact hn

/-- The heap determines what a pointer points to. -/
lemma Seg.unique {h : Heap α} {q s p : Option ℕ} {l l' : List (ℕ × α)} (hs : Seg h q p l none)
    (hs' : Seg h s p l' none) : l = l' := by
  induction l generalizing q s p l' with
  | nil =>
    obtain rfl : p = none := hs
    cases l' with
    | nil => rfl
    | cons c l' => exact absurd hs'.1 (by simp)
  | cons c l ih =>
    obtain ⟨a, x⟩ := c
    obtain ⟨rfl, n, hn, hs⟩ := hs
    cases l' with
    | nil => exact absurd hs' (by simp [Seg])
    | cons d l' =>
      obtain ⟨b, y⟩ := d
      obtain ⟨hab, m, hm, hs'⟩ := hs'
      obtain rfl := Option.some.inj hab
      obtain ⟨rfl, rfl, -⟩ := Cell.mk.inj (Option.some.inj (hn.symm.trans hm))
      rw [ih hs hs']

/-- A list has at most as many cells as the heap. -/
lemma IsList.length_le {h : Heap α} {p : Option ℕ} {l : List (ℕ × α)} (hl : IsList h p l) :
    l.length ≤ h.length := by
  have hsub : addrs l ⊆ List.range h.length := by
    intro a ha
    exact List.mem_range.mpr (hl.seg.lt_length a ha)
  have hle := (List.subperm_of_subset hl.nodup hsub).length_le
  simpa [addrs] using hle

lemma IsList.nil (h : Heap α) : IsList h none [] := ⟨rfl, List.nodup_nil⟩

/-- The null pointer is the empty list, and only that. -/
lemma IsList.eq_nil_iff {h : Heap α} {p : Option ℕ} {l : List (ℕ × α)} (hl : IsList h p l) :
    p = none ↔ l = [] := by
  cases l with
  | nil => simpa [Seg] using hl.seg
  | cons c l => simp [hl.seg.1]

/-- Unlinking a cell between `b` and `e`: the two neighbours are made to point at each other. -/
lemma IsList.unlink {h : Heap α} {p : Option ℕ} {l₁ l₂ : List (ℕ × α)} {a b e : ℕ} {x y z : α}
    {cb ce : Cell α} (hl : IsList h p ((l₁ ++ [(b, y)]) ++ (a, x) :: (e, z) :: l₂))
    (hb : h[b]? = some cb) (he : h[e]? = some ce) :
    IsList ((h.set b { cb with next := some e }).set e { ce with prev := some b }) p
      ((l₁ ++ [(b, y)]) ++ (e, z) :: l₂) := by
  obtain ⟨m, hs₁, hm, n, hn, hs₂⟩ := Seg.append.mp hl.seg
  have hnd := hl.nodup
  rw [addrs_append] at hnd
  obtain ⟨hnd₁, hnd₂, hdisj⟩ := List.nodup_append.mp hnd
  have hb₁ : b ∉ addrs l₁ := by
    rw [addrs_append] at hnd₁
    exact fun hmem => (List.nodup_append.mp hnd₁).2.2 b hmem b (by simp) rfl
  have hb₂ : b ∉ addrs ((e, z) :: l₂) := fun hmem =>
    hdisj b (by simp) b (List.mem_cons_of_mem _ hmem) rfl
  have he₁ : e ∉ addrs (l₁ ++ [(b, y)]) := fun hmem => hdisj e hmem e (by simp) rfl
  have hnd₃ : (addrs ((e, z) :: l₂)).Nodup := (List.nodup_cons.mp hnd₂).2
  have he₂ : e ∉ addrs l₂ := (List.nodup_cons.mp hnd₃).1
  have hbe : b ≠ e := fun hbe => hb₂ (by simp [hbe])
  obtain rfl : n = some e := hs₂.1
  have he' : (h.set b { cb with next := some e })[e]? = some ce := by
    rw [List.getElem?_set_ne hbe, he]
  refine ⟨Seg.append.mpr ⟨some e, (hs₁.setNext hb₁ hb).set _ he₁, ?_⟩, ?_⟩
  · rw [lastPtr_concat]
    exact (hs₂.set _ hb₂).setPrev he₂ he'
  · rw [addrs_append]
    refine List.nodup_append.mpr ⟨hnd₁, hnd₃, fun c hc d hd => ?_⟩
    exact hdisj c hc d (List.mem_cons_of_mem _ hd)

end OsProjects.DoublyLinked
