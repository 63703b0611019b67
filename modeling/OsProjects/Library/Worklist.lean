import Mathlib

/-!
# Traversals with an explicit stack

`visit s x` is the body of a loop that takes `x` from a stack: the state afterwards and
what it pushes, in this order, or `none` when it fails.  There is no set of elements
seen before.  `Ends` says that the loop ends, with at most `cap` elements on the stack;
`Clears` says the same along the recursion that the stack stands for.
-/

namespace OsProjects.Worklist
variable {σ τ α : Type*}

/-- The loop ends from the stack, whose top comes first, in the state `t`. -/
inductive Ends (visit : σ → α → Option (σ × List α)) (cap : ℕ) : σ → List α → σ → Prop
  | nil (s : σ) : Ends visit cap s [] s
  | cons {s s' t : σ} {x : α} {found rest : List α} (hvisit : visit s x = some (s', found))
      (hroom : rest.length + found.length ≤ cap)
      (hrest : Ends visit cap s' (found.reverse ++ rest) t) : Ends visit cap s (x :: rest) t

/-- The elements are taken one after the other, each with all that is found below it, while
`below` elements wait under them. -/
inductive Clears (visit : σ → α → Option (σ × List α)) (cap : ℕ) :
    ℕ → σ → List α → σ → Prop
  | nil (below : ℕ) (s : σ) : Clears visit cap below s [] s
  | cons {below : ℕ} {s s₁ s₂ t : σ} {x : α} {found rest : List α}
      (hvisit : visit s x = some (s₁, found))
      (hroom : below + rest.length + found.length ≤ cap)
      (hfound : Clears visit cap (below + rest.length) s₁ found.reverse s₂)
      (hrest : Clears visit cap below s₂ rest t) : Clears visit cap below s (x :: rest) t

variable {visit : σ → α → Option (σ × List α)} {cap : ℕ}

lemma Clears.ends {below : ℕ} {s s' t : σ} {xs rest : List α} (h : Clears visit cap below s xs s')
    (hbelow : rest.length = below) (hrest : Ends visit cap s' rest t) :
    Ends visit cap s (xs ++ rest) t := by
  induction h generalizing rest t with
  | nil => exact hrest
  | @cons below s s₁ s₂ t' x found xs hvisit hroom _ _ ihfound ihrest =>
    have hlength : (xs ++ rest).length = below + xs.length := by
      rw [List.length_append, hbelow, Nat.add_comm]
    rw [List.cons_append]
    refine .cons hvisit (by omega) (ihfound hlength ?_)
    exact ihrest hbelow hrest

/-- The loop ends in one state only. -/
lemma Ends.unique {s t t' : σ} {xs : List α} (h : Ends visit cap s xs t)
    (h' : Ends visit cap s xs t') : t = t' := by
  induction h with
  | nil s =>
    cases h'
    rfl
  | cons hvisit _ _ ih =>
    cases h' with
    | cons hvisit' _ hrest =>
      obtain ⟨rfl, rfl⟩ := Prod.mk.inj (Option.some.inj (hvisit.symm.trans hvisit'))
      exact ih hrest

/-- A stack in two parts is cleared part by part. -/
lemma Clears.split {below : ℕ} {s t : σ} {xs ys : List α}
    (h : Clears visit cap below s (xs ++ ys) t) :
    ∃ s', Clears visit cap (below + ys.length) s xs s' ∧ Clears visit cap below s' ys t := by
  induction xs generalizing s with
  | nil => exact ⟨s, .nil _ s, h⟩
  | cons x xs ih =>
    rw [List.cons_append] at h
    cases h with
    | cons hvisit hroom hfound hrest =>
      obtain ⟨s', hxs, hys⟩ := ih hrest
      rw [List.length_append] at hroom hfound
      have hsum : below + (xs.length + ys.length) = below + ys.length + xs.length := by omega
      rw [hsum] at hroom hfound
      exact ⟨s', .cons hvisit hroom hfound hxs, hys⟩

lemma Ends.clears {s t : σ} {xs : List α} (h : Ends visit cap s xs t) :
    Clears visit cap 0 s xs t := by
  induction h with
  | nil s => exact .nil 0 s
  | cons hvisit hroom _ ih =>
    obtain ⟨s', hfound, hrest⟩ := ih.split
    exact .cons hvisit (by omega) hfound hrest

/-- The loop ends when the recursion does. -/
theorem ends_iff_clears {s t : σ} {xs : List α} :
    Ends visit cap s xs t ↔ Clears visit cap 0 s xs t := by
  constructor
  · exact Ends.clears
  · intro h
    have hends : Ends visit cap s (xs ++ []) t := h.ends rfl (.nil t)
    rwa [List.append_nil] at hends

/-- Elements that are cleared one by one without a change are cleared together. -/
lemma Clears.of_forall {below : ℕ} {s : σ} {xs : List α}
    (h : ∀ k x, xs.reverse[k]? = some x → Clears visit cap (below + k) s [x] s) :
    Clears visit cap below s xs s := by
  induction xs with
  | nil => exact .nil below s
  | cons x rest ih =>
    have hget : (x :: rest).reverse[rest.length]? = some x := by
      rw [List.reverse_cons, ← List.length_reverse, List.getElem?_concat_length]
    have hrest : Clears visit cap below s rest s := by
      apply ih
      intro k y hk
      apply h
      obtain ⟨hlt, -⟩ := List.getElem?_eq_some_iff.mp hk
      rw [List.reverse_cons, List.getElem?_append_left hlt, hk]
    cases h rest.length x hget with
    | cons hvisit hroom hfound hnil =>
      cases hnil
      exact .cons hvisit hroom hfound hrest

/-! ## Parts of the state -/

section Part
variable {visit' : τ → α → Option (τ × List α)} {π : σ → τ} {I : σ → Prop}

/-- A loop that only reads a part of the state is followed on that part. -/
lemma Ends.part (hpart : ∀ s x, I s → visit' (π s) x = (visit s x).map fun r => (π r.1, r.2))
    (hkeep : ∀ s x s' found, I s → visit s x = some (s', found) → I s') {s t : σ} {xs : List α}
    (hs : I s) (h : Ends visit cap s xs t) : Ends visit' cap (π s) xs (π t) := by
  induction h with
  | nil => exact .nil _
  | cons hvisit hroom _ ih =>
    refine .cons ?_ hroom (ih (hkeep _ _ _ _ hs hvisit))
    rw [hpart _ _ hs, hvisit]
    rfl

lemma Ends.of_part (hpart : ∀ s x, I s → visit' (π s) x = (visit s x).map fun r => (π r.1, r.2))
    (hkeep : ∀ s x s' found, I s → visit s x = some (s', found) → I s') {s : σ} {t' : τ}
    {xs : List α} (hs : I s) (h : Ends visit' cap (π s) xs t') :
    ∃ t, Ends visit cap s xs t ∧ π t = t' := by
  generalize hs' : π s = s' at h
  induction h generalizing s with
  | nil => exact ⟨s, .nil s, hs'⟩
  | @cons s₀ s₁ t' x found rest hvisit hroom _ ih =>
    rw [← hs', hpart _ _ hs] at hvisit
    obtain ⟨⟨s₂, found'⟩, hv, hr⟩ := Option.map_eq_some_iff.mp hvisit
    obtain ⟨hπ, rfl⟩ := Prod.mk.inj hr
    obtain ⟨t, hends, ht⟩ := ih (hkeep _ _ _ _ hs hv) hπ
    exact ⟨t, .cons hv hroom hends, ht⟩

end Part

/-! ## Trees -/

/-- What is found from `root` on. -/
def Reach (found : α → List α) (root : α) : α → Prop :=
  Relation.ReflTransGen (fun x y => y ∈ found x) root

/-- From `root` on everything is found once, and `root` never. -/
structure Tree (found : α → List α) (root : α) : Prop where
  nodup : ∀ x, Reach found root x → (found x).Nodup
  once : ∀ x y z, Reach found root x → Reach found root y → z ∈ found x → z ∈ found y → x = y
  root_notMem : ∀ x, Reach found root x → root ∉ found x

/-- The elements taken so far, and those on the stack. -/
structure Covers (found : α → List α) (root : α) (seen stack : List α) : Prop where
  nodup : (seen ++ stack).Nodup
  reach : ∀ x ∈ seen ++ stack, Reach found root x
  root_mem : root ∈ seen ++ stack
  closed : ∀ x ∈ seen, ∀ y ∈ found x, y ∈ seen ++ stack
  from_seen : ∀ y ∈ seen ++ stack, y = root ∨ ∃ x ∈ seen, y ∈ found x

variable {found : α → List α} {root : α}

lemma Covers.start (found : α → List α) (root : α) : Covers found root [] [root] where
  nodup := List.nodup_singleton root
  reach := by
    intro x hx
    rw [List.nil_append, List.mem_singleton] at hx
    exact hx ▸ .refl
  root_mem := List.mem_singleton_self root
  closed := fun x hx => absurd hx List.not_mem_nil
  from_seen := fun y hy => Or.inl (List.mem_singleton.mp hy)

/-- What is found below an element of the stack is not there yet. -/
lemma Covers.fresh {x : α} {seen rest : List α} (h : Covers found root seen (x :: rest))
    (ht : Tree found root) {y : α} (hy : y ∈ found x) : y ∉ seen ++ x :: rest := by
  intro hmem
  have hmid : x ∈ seen ++ x :: rest := List.mem_append_right _ List.mem_cons_self
  have hx := h.reach x hmid
  rcases h.from_seen y hmem with rfl | ⟨z, hz, hyz⟩
  · exact ht.root_notMem x hx hy
  · have hzx := ht.once z x y (h.reach z (List.mem_append_left _ hz)) hx hyz hy
    have hdisjoint := (List.nodup_append.mp h.nodup).2.2
    exact hdisjoint x (hzx ▸ hz) x List.mem_cons_self rfl

lemma Covers.step {x : α} {seen rest : List α} (h : Covers found root seen (x :: rest))
    (ht : Tree found root) : Covers found root (x :: seen) ((found x).reverse ++ rest) := by
  have hmid : x ∈ seen ++ x :: rest := List.mem_append_right _ List.mem_cons_self
  have hx := h.reach x hmid
  -- the same elements as before, and those found now
  have hperm : (x :: seen ++ ((found x).reverse ++ rest)).Perm
      (found x ++ (seen ++ x :: rest)) := by
    have hmove : (x :: (seen ++ (found x ++ rest))).Perm (found x ++ (x :: (seen ++ rest))) := by
      have hswap : (seen ++ (found x ++ rest)).Perm (found x ++ (seen ++ rest)) := by
        rw [← List.append_assoc, ← List.append_assoc]
        exact List.perm_append_comm.append_right rest
      exact (hswap.cons x).trans List.perm_middle.symm
    refine ((List.Perm.append_left seen ((List.reverse_perm (found x)).append_right rest)).cons
      x).trans (hmove.trans ?_)
    exact List.Perm.append_left _ List.perm_middle.symm
  have hmem : ∀ y, y ∈ x :: seen ++ ((found x).reverse ++ rest) ↔
      y ∈ found x ∨ y ∈ seen ++ x :: rest := by
    intro y
    rw [hperm.mem_iff, List.mem_append]
  constructor
  · rw [hperm.nodup_iff, List.nodup_append]
    refine ⟨ht.nodup x hx, h.nodup, ?_⟩
    rintro y hy z hz rfl
    exact h.fresh ht hy hz
  · intro y hy
    rcases (hmem y).mp hy with hy | hy
    · exact hx.tail hy
    · exact h.reach y hy
  · exact (hmem root).mpr (Or.inr h.root_mem)
  · intro z hz y hy
    rw [hmem]
    rcases List.mem_cons.mp hz with rfl | hz
    · exact Or.inl hy
    · exact Or.inr (h.closed z hz y hy)
  · intro y hy
    rcases (hmem y).mp hy with hy | hy
    · exact Or.inr ⟨x, List.mem_cons_self, hy⟩
    · refine (h.from_seen y hy).imp_right ?_
      rintro ⟨z, hz, hyz⟩
      exact ⟨z, List.mem_cons_of_mem _ hz, hyz⟩

/-- When the stack is empty, everything there is has been taken. -/
lemma Covers.mem_iff {seen : List α} (h : Covers found root seen []) (y : α) :
    y ∈ seen ↔ Reach found root y := by
  have hnil := List.append_nil seen
  constructor
  · exact fun hy => h.reach y (hnil.symm ▸ hy)
  · intro hy
    induction hy with
    | refl => exact hnil ▸ h.root_mem
    | tail _ hyz ih => exact hnil ▸ h.closed _ ih _ hyz

/-- In a tree of at most `cap` elements the loop ends, whatever it does to the state besides. -/
theorem Tree.ends {I : σ → List α → Prop} (ht : Tree found root) {all : Finset α}
    (hall : ∀ x, Reach found root x → x ∈ all) (hcap : all.card ≤ cap)
    (hvisit : ∀ s seen x rest, I s seen → Covers found root seen (x :: rest) →
      ∃ s', visit s x = some (s', found x) ∧ I s' (x :: seen)) {s : σ} {seen stack : List α}
    (hcovers : Covers found root seen stack) (hs : I s seen) :
    ∃ t seen', Ends visit cap s stack t ∧ Covers found root seen' [] ∧ I t seen' := by
  classical
  have hcard : ∀ l : List α, l.Nodup → (∀ x ∈ l, Reach found root x) → l.length ≤ all.card := by
    intro l hl hreach
    rw [← List.toFinset_card_of_nodup hl]
    exact Finset.card_le_card fun x hx => hall x (hreach x (List.mem_toFinset.mp hx))
  -- every turn takes one more element
  generalize hn : all.card - seen.length = n
  induction n generalizing s seen stack with
  | zero =>
    cases stack with
    | nil => exact ⟨s, seen, .nil s, hcovers, hs⟩
    | cons x rest =>
      have hle := hcard _ hcovers.nodup hcovers.reach
      rw [List.length_append, List.length_cons] at hle
      omega
  | succ n ih =>
    cases stack with
    | nil => exact ⟨s, seen, .nil s, hcovers, hs⟩
    | cons x rest =>
      obtain ⟨s', hv, hs'⟩ := hvisit s seen x rest hs hcovers
      have hstep := hcovers.step ht
      obtain ⟨t, seen', hends, hfinal⟩ := ih hstep hs' (by rw [List.length_cons]; omega)
      refine ⟨t, seen', .cons hv ?_ hends, hfinal⟩
      have hle := hcard _ hstep.nodup hstep.reach
      simp only [List.length_append, List.length_cons, List.length_reverse] at hle
      omega

/-! ## Graphs

When the body finds the same below an element whenever it takes it, only the graph decides whether
the loop ends. -/

/-- What the body finds below an element that is `ok`, and nothing else. -/
def onGraph (ok : α → Prop) [DecidablePred ok] (found : α → List α) (_ : Unit) (x : α) :
    Option (Unit × List α) :=
  if ok x then some ((), found x) else none

/-- There is a way from `x` down to `y` on which `n` elements are found before those taken. -/
inductive Waits (found : α → List α) : α → α → ℕ → Prop
  | here (x : α) : Waits found x x 0
  | under {x y z : α} {k n : ℕ} (hfound : (found x)[k]? = some y) (h : Waits found y z n) :
      Waits found x z (k + n)

lemma Reach.waits {x : α} (h : Reach found root x) : ∃ n, Waits found root x n := by
  unfold Reach at h
  induction h using Relation.ReflTransGen.head_induction_on with
  | refl => exact ⟨0, .here x⟩
  | head hmem _ ih =>
    obtain ⟨k, hk⟩ := List.mem_iff_getElem?.mp hmem
    obtain ⟨n, hn⟩ := ih
    exact ⟨k + n, .under hk hn⟩

lemma Waits.reach {x : α} {n : ℕ} (h : Waits found root x n) : Reach found root x := by
  induction h with
  | here x => exact .refl
  | under hfound _ ih => exact Relation.ReflTransGen.head (List.mem_of_getElem? hfound) ih

section Graph
variable {ok : α → Prop} [DecidablePred ok]

/-- What is cleared has no endless way down from it. -/
lemma Clears.acc {below : ℕ} {s t : Unit} {xs : List α}
    (h : Clears (onGraph ok found) cap below s xs t) :
    ∀ x ∈ xs, Acc (fun y x => y ∈ found x) x := by
  induction h with
  | nil => exact fun x hx => absurd hx List.not_mem_nil
  | cons hvisit _ _ _ ihfound ihrest =>
    intro y hy
    rcases List.mem_cons.mp hy with rfl | hy
    · unfold onGraph at hvisit
      split_ifs at hvisit
      obtain ⟨-, rfl⟩ := Prod.mk.inj (Option.some.inj hvisit)
      exact Acc.intro y fun z hz => ihfound z (List.mem_reverse.mpr hz)
    · exact ihrest y hy

/-- On the way down everything is good and has room. -/
lemma Clears.room {below : ℕ} {s t : Unit} {xs : List α}
    (h : Clears (onGraph ok found) cap below s xs t) : ∀ k x, xs.reverse[k]? = some x →
      ∀ z n, Waits found x z n → ok z ∧ below + k + n + (found z).length ≤ cap := by
  induction h with
  | nil => exact fun k x hx => absurd (List.mem_of_getElem? hx) List.not_mem_nil
  | @cons below s s₁ s₂ t x found₁ rest hvisit hroom _ _ ihfound ihrest =>
    intro k y hk z n hz
    rw [List.reverse_cons] at hk
    by_cases hlt : k < rest.reverse.length
    · rw [List.getElem?_append_left hlt] at hk
      exact ihrest k y hk z n hz
    · -- the element that is taken first stands last
      rw [List.getElem?_append_right (not_lt.mp hlt)] at hk
      obtain ⟨hzero, hy⟩ := List.getElem?_eq_some_iff.mp hk
      rw [List.length_singleton] at hzero
      rw [List.getElem_singleton] at hy
      rw [List.length_reverse] at hzero hlt
      have hkr : k = rest.length := by omega
      subst hkr
      subst hy
      unfold onGraph at hvisit
      split_ifs at hvisit with hok
      obtain ⟨-, rfl⟩ := Prod.mk.inj (Option.some.inj hvisit)
      cases hz with
      | here => exact ⟨hok, hroom⟩
      | @under _ y' _ j m hj hm =>
        rw [← List.reverse_reverse (found x)] at hj
        obtain ⟨hz, hle⟩ := ihfound j y' hj z m hm
        exact ⟨hz, by omega⟩

/-- Without an endless way down, what has room is cleared. -/
lemma clears_of_acc {x : α} (hacc : Acc (fun y x => y ∈ found x) x) {below : ℕ}
    (h : ∀ z n, Waits found x z n → ok z ∧ below + n + (found z).length ≤ cap) :
    Clears (onGraph ok found) cap below () [x] () := by
  induction hacc generalizing below with
  | intro x _ ih =>
    obtain ⟨hok, hroom⟩ := h x 0 (.here x)
    have hvisit : onGraph ok found () x = some ((), found x) := if_pos hok
    refine .cons hvisit hroom ?_ (.nil below ())
    apply Clears.of_forall
    intro k y hk
    rw [List.reverse_reverse] at hk
    apply ih y (List.mem_of_getElem? hk)
    intro z n hz
    obtain ⟨hz, hle⟩ := h z (k + n) (.under hk hz)
    exact ⟨hz, by rw [List.length_nil]; omega⟩

/-- In a finite graph without cycles no way down is endless. -/
lemma acc_of_acyclic (hfin : {x | Reach found root x}.Finite)
    (h : ∀ x, Reach found root x → ¬ Relation.TransGen (fun x y => y ∈ found x) x x) :
    Acc (fun y x => y ∈ found x) root := by
  let below (y x : {x | Reach found root x}) : Prop :=
    Relation.TransGen (fun x y => y ∈ found x) x.1 y.1
  have : Finite {x | Reach found root x} := hfin
  have : IsTrans _ below := ⟨fun _ _ _ hab hbc => hbc.trans hab⟩
  have : Std.Irrefl below := ⟨fun x => h x.1 x.2⟩
  have hwf : WellFounded below := Finite.wellFounded_of_trans_of_irrefl below
  have hall : ∀ x : {x | Reach found root x}, Acc (fun y x => y ∈ found x) x.1 := by
    intro x
    induction x using hwf.induction with
    | _ x ih => exact Acc.intro x.1 fun y hy => ih ⟨y, x.2.tail hy⟩ (.single hy)
  exact hall ⟨root, .refl⟩

lemma not_transGen_of_acc {x : α} (h : Acc (fun y x => y ∈ found x) x) :
    ¬ Relation.TransGen (fun x y => y ∈ found x) x x := by
  induction h with
  | intro x _ ih =>
    intro hcycle
    obtain ⟨y, hy, hback⟩ := Relation.TransGen.head'_iff.mp hcycle
    exact ih y hy (Relation.TransGen.tail' hback hy)

/-- On a graph the loop ends exactly when everything it reaches is good, nothing is reached from
itself, and what waits on a way down leaves room for what is found there. -/
theorem ends_onGraph_iff (hfin : {x | ok x}.Finite) :
    Ends (onGraph ok found) cap () [root] () ↔ (∀ x, Reach found root x → ok x) ∧
      (∀ x, Reach found root x → ¬ Relation.TransGen (fun x y => y ∈ found x) x x) ∧
      ∀ x n, Waits found root x n → n + (found x).length ≤ cap := by
  rw [ends_iff_clears]
  constructor
  · intro h
    have hroom : ∀ z n, Waits found root z n → ok z ∧ 0 + 0 + n + (found z).length ≤ cap :=
      h.room 0 root rfl
    have hacc : ∀ x, Reach found root x → Acc (fun y x => y ∈ found x) x := by
      intro x hx
      induction hx with
      | refl => exact h.acc root (List.mem_singleton_self root)
      | tail _ hmem ih => exact ih.inv hmem
    refine ⟨fun x hx => ?_, fun x hx => not_transGen_of_acc (hacc x hx), fun x n hx => ?_⟩
    · obtain ⟨n, hn⟩ := hx.waits
      exact (hroom x n hn).1
    · have hle := (hroom x n hx).2
      omega
  · rintro ⟨hok, hacyclic, hroom⟩
    apply clears_of_acc (acc_of_acyclic (hfin.subset hok) hacyclic)
    intro z n hz
    exact ⟨hok z hz.reach, by have := hroom z n hz; omega⟩

end Graph

end OsProjects.Worklist
