import Mathlib

/-!
# Second-chance replacement

The reference algorithm on frames `α` and pages `β`: a queue of the frames in the
order of their loads, and a bit for every frame that is set when its page is
loaded and whenever it is hit.
-/

namespace OsProjects.SecondChance

variable {α β : Type*} [DecidableEq α] [DecidableEq β]

/-- While the bit of the front frame is set it is cleared and the frame goes to the back; then
the front frame is the victim, and goes to the back with its bit set for the new page. -/
def evict (bit : α → Bool) : List α → Option (α × List α × (α → Bool))
  | [] => none
  | f :: q =>
    if bit f then evict (Function.update bit f false) (q ++ [f])
    else some (f, q ++ [f], Function.update bit f true)
termination_by l => l.countP bit
decreasing_by
  rename_i hf
  have hmono : q.countP (Function.update bit f false) ≤ q.countP bit := by
    apply List.countP_mono_left
    intro g _ hg
    by_cases hgf : g = f
    · rw [hgf, Function.update_self] at hg
      cases hg
    · rwa [Function.update_of_ne hgf] at hg
  rw [List.countP_append, List.countP_cons_of_pos hf, List.countP_singleton, Function.update_self]
  exact Nat.lt_succ_of_le hmono

lemma evict_of_set {bit : α → Bool} {f : α} {q : List α} (hf : bit f = true) :
    evict bit (f :: q) = evict (Function.update bit f false) (q ++ [f]) := by
  rw [evict, if_pos hf]

lemma evict_of_clear {bit : α → Bool} {f : α} {q : List α} (hf : bit f = false) :
    evict bit (f :: q) = some (f, q ++ [f], Function.update bit f true) := by
  rw [evict, if_neg (Bool.eq_false_iff.mp hf)]

/-- The frames still free, the queue of those in use, their bits and pages, and the victims
so far. -/
structure Machine (α β : Type*) where
  free : List α
  queue : List α
  bit : α → Bool
  page : α → Option β
  victims : List α

/-- Nothing is loaded yet. -/
def Machine.fresh (frames : List α) : Machine α β where
  free := frames
  queue := []
  bit := fun _ => false
  page := fun _ => none
  victims := []

def Machine.touch (m : Machine α β) (f : α) : Machine α β :=
  { m with bit := Function.update m.bit f true }

def Machine.load (m : Machine α β) (f : α) (free : List α) (p : β) : Machine α β :=
  { m with
    free := free
    queue := m.queue ++ [f]
    bit := Function.update m.bit f true
    page := Function.update m.page f (some p) }

def Machine.replace (m : Machine α β) (f : α) (queue : List α) (bit : α → Bool) (p : β) :
    Machine α β :=
  { m with
    queue := queue
    bit := bit
    page := Function.update m.page f (some p)
    victims := m.victims ++ [f] }

/-- An access of the page `p`. -/
def Machine.access (m : Machine α β) (p : β) : Machine α β :=
  match m.queue.find? fun f => m.page f = some p with
  | some f => m.touch f
  | none =>
    match m.free with
    | f :: free => m.load f free p
    | [] =>
      match evict m.bit m.queue with
      | some (f, queue, bit) => m.replace f queue bit p
      | none => m

variable {m : Machine α β} {f : α} {p : β}

lemma access_of_hit (hf : f ∈ m.queue) (hp : m.page f = some p)
    (hunique : ∀ g ∈ m.queue, m.page g = some p → g = f) : m.access p = m.touch f := by
  have hfind : (m.queue.find? fun f => decide (m.page f = some p)) = some f := by
    have hsome : (m.queue.find? fun f => decide (m.page f = some p)).isSome :=
      List.find?_isSome.mpr ⟨f, hf, by rw [hp, decide_eq_true rfl]⟩
    obtain ⟨g, hg⟩ := Option.isSome_iff_exists.mp hsome
    have hgp := List.find?_some hg
    rw [hg, hunique g (List.mem_of_find?_eq_some hg) (of_decide_eq_true hgp)]
  rw [Machine.access, hfind]

omit [DecidableEq α] in
lemma find_eq_none (hmiss : ∀ g ∈ m.queue, m.page g ≠ some p) :
    (m.queue.find? fun f => decide (m.page f = some p)) = none :=
  List.find?_eq_none.mpr fun g hg h => hmiss g hg (of_decide_eq_true h)

lemma access_of_free {free : List α} (hmiss : ∀ g ∈ m.queue, m.page g ≠ some p)
    (hfree : m.free = f :: free) : m.access p = m.load f free p := by
  rw [Machine.access, find_eq_none hmiss]
  simp only [hfree]

lemma access_of_full {queue : List α} {bit : α → Bool}
    (hmiss : ∀ g ∈ m.queue, m.page g ≠ some p) (hfree : m.free = [])
    (hev : evict m.bit m.queue = some (f, queue, bit)) :
    m.access p = m.replace f queue bit p := by
  rw [Machine.access, find_eq_none hmiss]
  simp only [hfree, hev]

end OsProjects.SecondChance
