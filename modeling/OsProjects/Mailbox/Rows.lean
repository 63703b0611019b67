import OsProjects.Mailbox.Matrix

/-!
# When `matrix.c` finishes, and with what

The answers in the inbox, the one in the child's hands and those it still owes
for the mailbox are the rows in their order, at any time.  The parent takes
nothing out before it has sent all, so all rows must have a place: `capacity` in
each queue, and one in the child.  A size above `MAX_SIZE` ends the program before.
-/

namespace OsProjects.Mailbox
open Relation Ranked

variable {x : Input} {capacity k m n : ℕ} {garbage : ℕ → Int32} {s s' : State}

/-- The answer for a row, computed on top of what `message.result` held. -/
def rowAnswer (x : Input) (garbage : ℕ → Int32) (row : ℕ) : Message :=
  answer x { index := row, finished := false, result := garbage }

def ChildPC.pending : ChildPC → List Message
  | .send m => [m]
  | _ => []

/-- `k` rows have been stored, and the next `m` are on their way. -/
structure Flight (x : Input) (garbage : ℕ → Int32) (s : State) (k m : ℕ) : Prop where
  flow : s.inbox ++ s.child.pending ++ s.mailbox.map (answer x) =
    (List.range' k m).map (rowAnswer x garbage)
  open' : ∀ q ∈ s.mailbox, q.finished = false
  message : s.message.finished = false
  child : s.child = .receive ∨ ∃ q, s.child = .send q
  stored : ∀ i j, j < x.size →
    s.result i j = if i < k then (rowAnswer x garbage i).result j else 0

/-- All rows are stored, and the child has been told to end. -/
structure Ending (x : Input) (garbage : ℕ → Int32) (s : State) : Prop where
  inbox : s.inbox = []
  child : s.child = .receive ∧ (∃ q, s.mailbox = [q] ∧ q.finished = true) ∨
    s.child = .free ∧ s.mailbox = [] ∨ s.child = .done ∧ s.mailbox = []
  stored : ∀ i j, j < x.size →
    s.result i j = if i < x.size then (rowAnswer x garbage i).result j else 0

/-- What holds at each statement of the parent. -/
def AtParent (x : Input) (garbage : ℕ → Int32) (s : State) : ParentPC → Prop
  | .check => s = start garbage
  | .populate rows => rows ≤ x.size ∧ Flight x garbage s 0 rows ∧ s.message.result = garbage
  | .empty rows => rows ≤ x.size ∧ Flight x garbage s rows (x.size - rows)
  | .notify => Flight x garbage s x.size 0
  | .waitpid => Ending x garbage s
  | .free => Ending x garbage s ∧ s.child = .done
  | .done => Ending x garbage s ∧ s.child = .done
  | .exited _ => s.child = .unborn ∧ maxSize < x.size

structure Inv (x : Input) (capacity : ℕ) (garbage : ℕ → Int32) (s : State) : Prop where
  inbox : s.inbox.length ≤ capacity
  mailbox : s.mailbox.length ≤ capacity
  atParent : AtParent x garbage s s.parent

lemma inv_start : Inv x capacity garbage (start garbage) := ⟨Nat.zero_le _, Nat.zero_le _, rfl⟩

lemma flight_fork (parent : ParentPC) :
    Flight x garbage { start garbage with parent := parent, child := .receive } 0 0 :=
  ⟨rfl, fun _ h => absurd h List.not_mem_nil, rfl, Or.inl rfl, fun _ _ _ => rfl⟩

/-- Before the fork and behind `waitpid` there is no child that runs. -/
lemma AtParent.child_gone {pc : ParentPC} (h : AtParent x garbage s pc)
    (hpc : pc = .check ∨ pc = .free ∨ pc = .done ∨ ∃ m, pc = .exited m) :
    s.child = .unborn ∨ s.child = .done := by
  rcases hpc with rfl | rfl | rfl | ⟨m, rfl⟩
  · exact Or.inl (congrArg State.child (h : s = start garbage))
  · exact Or.inr h.2
  · exact Or.inr h.2
  · exact Or.inl h.1

lemma Flight.length (h : Flight x garbage s k m) :
    s.inbox.length + s.child.pending.length + s.mailbox.length = m := by
  have := congrArg List.length h.flow
  simpa only [List.length_append, List.length_map, List.length_range'] using this

/-- The child takes a message and works on it, which does not change what is on its way. -/
lemma Flight.receive {q : Message} {qs : List Message} (h : Flight x garbage s k m)
    (hpc : s.child = .receive) (hmailbox : s.mailbox = q :: qs) :
    Flight x garbage { s with child := .send (answer x q), mailbox := qs } k m := by
  refine ⟨?_, fun r hr => h.open' r ?_, h.message, Or.inr ⟨_, rfl⟩, h.stored⟩
  · rw [← h.flow, hpc, hmailbox]
    simp [ChildPC.pending]
  · rw [hmailbox]
    exact List.mem_cons_of_mem q hr

lemma Flight.send {q : Message} (h : Flight x garbage s k m) (hpc : s.child = .send q) :
    Flight x garbage { s with child := .receive, inbox := s.inbox ++ [q] } k m := by
  refine ⟨?_, h.open', h.message, Or.inl rfl, h.stored⟩
  rw [← h.flow, hpc]
  simp [ChildPC.pending]

lemma Flight.not_finish {q : Message} {qs : List Message} (h : Flight x garbage s k m)
    (hmailbox : s.mailbox = q :: qs) : q.finished = false :=
  h.open' q (by rw [hmailbox]; exact List.mem_cons_self)

lemma Flight.populate (h : Flight x garbage s 0 m) (hresult : s.message.result = garbage)
    (parent : ParentPC) :
    Flight x garbage
      { s with
        parent := parent
        message := { s.message with index := m }
        mailbox := s.mailbox ++ [{ s.message with index := m }] } 0 (m + 1) := by
  have hrow : answer x { s.message with index := m } = rowAnswer x garbage m := by
    rw [rowAnswer, ← h.message, ← hresult]
  refine ⟨?_, fun q hq => ?_, h.message, h.child, h.stored⟩
  · change s.inbox ++ s.child.pending ++ (s.mailbox ++ [_]).map (answer x) = _
    rw [List.map_append, ← List.append_assoc, h.flow, List.map_singleton, hrow, List.range'_concat,
      List.map_append, List.map_singleton]
    simp
  · rcases List.mem_append.mp hq with hq | hq
    · exact h.open' q hq
    · rw [List.mem_singleton.mp hq]
      exact h.message

/-- The first message in the inbox is the answer for the next row. -/
lemma Flight.empty {q : Message} {qs : List Message} (h : Flight x garbage s k (m + 1))
    (hinbox : s.inbox = q :: qs) (parent : ParentPC) :
    Flight x garbage { s.storeRow x.size q with parent := parent, inbox := qs } (k + 1) m := by
  have hflow := h.flow
  rw [hinbox, List.range'_succ, List.map_cons, List.cons_append, List.cons_append,
    List.cons.injEq] at hflow
  obtain ⟨rfl, hflow⟩ := hflow
  refine ⟨hflow, h.open', rfl, h.child, fun i j hj => ?_⟩
  change (if i = k ∧ j < x.size then _ else s.result i j) = _
  by_cases hi : i = k
  · rw [if_pos ⟨hi, hj⟩, if_pos (by omega), hi]
  · rw [if_neg (fun h => hi h.1), h.stored i j hj]
    by_cases hk : i < k
    · rw [if_pos hk, if_pos (by omega)]
    · rw [if_neg hk, if_neg (by omega)]

/-- The child moves, and the parent stays where it is. -/
lemma AtParent.receive {q : Message} {qs : List Message} {pc : ParentPC}
    (h : AtParent x garbage s pc) (hpc : s.child = .receive) (hmailbox : s.mailbox = q :: qs)
    (hq : q.finished = false) :
    AtParent x garbage { s with child := .send (answer x q), mailbox := qs } pc := by
  cases pc with
  | check => exact absurd (h.child_gone (by simp)) (by simp [hpc])
  | populate rows => exact ⟨h.1, h.2.1.receive hpc hmailbox, h.2.2⟩
  | empty rows => exact ⟨h.1, h.2.receive hpc hmailbox⟩
  | notify => exact Flight.receive h hpc hmailbox
  | waitpid =>
    rcases h.child with ⟨-, r, hr, hfin⟩ | ⟨h, -⟩ | ⟨h, -⟩
    · obtain rfl := (List.cons.inj (hmailbox.symm.trans hr)).1
      rw [hq] at hfin
      cases hfin
    · rw [hpc] at h; cases h
    · rw [hpc] at h; cases h
  | free => exact absurd (h.child_gone (by simp)) (by simp [hpc])
  | done => exact absurd (h.child_gone (by simp)) (by simp [hpc])
  | exited m => exact absurd (h.child_gone (by simp)) (by simp [hpc])

lemma AtParent.send {q : Message} {pc : ParentPC} (h : AtParent x garbage s pc)
    (hpc : s.child = .send q) :
    AtParent x garbage { s with child := .receive, inbox := s.inbox ++ [q] } pc := by
  cases pc with
  | check => exact absurd (h.child_gone (by simp)) (by simp [hpc])
  | populate rows => exact ⟨h.1, h.2.1.send hpc, h.2.2⟩
  | empty rows => exact ⟨h.1, h.2.send hpc⟩
  | notify => exact Flight.send h hpc
  | waitpid => rcases h.child with ⟨h, -⟩ | ⟨h, -⟩ | ⟨h, -⟩ <;> rw [hpc] at h <;> cases h
  | free => exact absurd (h.child_gone (by simp)) (by simp [hpc])
  | done => exact absurd (h.child_gone (by simp)) (by simp [hpc])
  | exited m => exact absurd (h.child_gone (by simp)) (by simp [hpc])

/-- Only the last message tells the child to end. -/
lemma AtParent.finish {q : Message} {qs : List Message} {pc : ParentPC}
    (h : AtParent x garbage s pc) (hpc : s.child = .receive) (hmailbox : s.mailbox = q :: qs)
    (hq : q.finished = true) :
    AtParent x garbage { s with child := .free, mailbox := qs } pc := by
  have hnot : ∀ {k m}, Flight x garbage s k m → False := fun hf => by
    rw [hf.not_finish hmailbox] at hq
    cases hq
  cases pc with
  | check => exact absurd (h.child_gone (by simp)) (by simp [hpc])
  | populate rows => exact (hnot h.2.1).elim
  | empty rows => exact (hnot h.2).elim
  | notify => exact (hnot h).elim
  | waitpid =>
    rcases h.child with ⟨-, r, hr, -⟩ | ⟨h, -⟩ | ⟨h, -⟩
    · obtain rfl := (List.cons.inj (hmailbox.symm.trans hr)).2
      exact ⟨h.inbox, Or.inr (Or.inl ⟨rfl, rfl⟩), h.stored⟩
    · rw [hpc] at h; cases h
    · rw [hpc] at h; cases h
  | free => exact absurd (h.child_gone (by simp)) (by simp [hpc])
  | done => exact absurd (h.child_gone (by simp)) (by simp [hpc])
  | exited m => exact absurd (h.child_gone (by simp)) (by simp [hpc])

lemma AtParent.freeMailbox {pc : ParentPC} (h : AtParent x garbage s pc) (hpc : s.child = .free) :
    AtParent x garbage { s with child := .done, mailbox := [] } pc := by
  have hnot : ∀ {k m}, Flight x garbage s k m → False := fun hf => by
    rcases hf.child with h | ⟨q, h⟩ <;> rw [hpc] at h <;> cases h
  cases pc with
  | check => exact absurd (h.child_gone (by simp)) (by simp [hpc])
  | populate rows => exact (hnot h.2.1).elim
  | empty rows => exact (hnot h.2).elim
  | notify => exact (hnot h).elim
  | waitpid => exact ⟨h.inbox, Or.inr (Or.inr ⟨rfl, rfl⟩), h.stored⟩
  | free => exact absurd (h.child_gone (by simp)) (by simp [hpc])
  | done => exact absurd (h.child_gone (by simp)) (by simp [hpc])
  | exited m => exact absurd (h.child_gone (by simp)) (by simp [hpc])

lemma Step.inv (hi : Inv x capacity garbage s) (hs : Step x capacity s s') :
    Inv x capacity garbage s' := by
  obtain ⟨hin, hout, h⟩ := hi
  cases hs with
  | tooLarge hpc hsize =>
    rw [hpc] at h
    obtain rfl : s = start garbage := h
    exact ⟨hin, hout, rfl, hsize⟩
  | fork hpc =>
    rw [hpc] at h
    obtain rfl : s = start garbage := h
    exact ⟨hin, hout, Nat.zero_le _, flight_fork _, rfl⟩
  | @populate rows hpc hrows hroom =>
    rw [hpc] at h
    obtain ⟨-, hf, hresult⟩ := h
    refine ⟨hin, ?_, hrows, hf.populate hresult _, hresult⟩
    rw [List.length_append]
    exact hroom
  | populated hpc =>
    rw [hpc] at h
    obtain ⟨-, hf, -⟩ := h
    exact ⟨hin, hout, Nat.zero_le _, hf.flow, hf.open', hf.message, hf.child, hf.stored⟩
  | @empty rows q qs hpc hrows hinbox =>
    rw [hpc] at h
    obtain ⟨-, hf⟩ := h
    rw [show x.size - rows = (x.size - (rows + 1)) + 1 by omega] at hf
    rw [hinbox, List.length_cons] at hin
    exact ⟨(Nat.le_succ _).trans hin, hout, hrows, hf.empty hinbox _⟩
  | emptied hpc =>
    rw [hpc] at h
    obtain ⟨-, hf⟩ := h
    rw [Nat.sub_self] at hf
    exact ⟨hin, hout, hf.flow, hf.open', hf.message, hf.child, hf.stored⟩
  | notify hpc hroom =>
    rw [hpc] at h
    have h : Flight x garbage s x.size 0 := h
    have hlen := h.length
    have hmailbox : s.mailbox = [] := List.eq_nil_of_length_eq_zero (by omega)
    have hinbox : s.inbox = [] := List.eq_nil_of_length_eq_zero (by omega)
    have hchild : s.child = .receive := by
      refine h.child.resolve_right ?_
      rintro ⟨q, hq⟩
      rw [hq] at hlen
      simp only [ChildPC.pending, List.length_singleton] at hlen
      omega
    refine ⟨hin, ?_, hinbox, Or.inl ⟨hchild, { s.message with finished := true }, ?_, rfl⟩,
      h.stored⟩
    · rw [List.length_append]
      exact hroom
    · rw [hmailbox]
      rfl
  | waitpid hpc hchild =>
    rw [hpc] at h
    have h : Ending x garbage s := h
    exact ⟨hin, hout, ⟨h.inbox, h.child, h.stored⟩, hchild⟩
  | freeInbox hpc =>
    rw [hpc] at h
    exact ⟨Nat.zero_le _, hout, ⟨rfl, h.1.child, h.1.stored⟩, h.2⟩
  | receive hpc hmailbox hq =>
    rw [hmailbox, List.length_cons] at hout
    exact ⟨hin, (Nat.le_succ _).trans hout, h.receive hpc hmailbox hq⟩
  | finish hpc hmailbox hq =>
    rw [hmailbox, List.length_cons] at hout
    exact ⟨hin, (Nat.le_succ _).trans hout, h.finish hpc hmailbox hq⟩
  | send hpc hroom =>
    refine ⟨?_, hout, h.send hpc⟩
    rw [List.length_append]
    exact hroom
  | freeMailbox hpc => exact ⟨hin, Nat.zero_le _, h.freeMailbox hpc⟩

/-- The program has ended, with the child or without one. -/
def Ended (s : State) : Prop :=
  (∃ m, s.parent = .exited m) ∨ s.parent = .done ∧ s.child = .done

/-- The parent waits for room in the mailbox, and the child for room in the inbox. -/
structure Deadlocked (capacity : ℕ) (s : State) : Prop where
  parent : s.parent = .populate (2 * capacity + 1)
  mailbox : s.mailbox.length = capacity
  child : ∃ q, s.child = .send q
  inbox : s.inbox.length = capacity

/-- A child that cannot receive has an empty mailbox. -/
lemma Stuck.mailbox_nil (hs : Stuck x capacity s) (hpc : s.child = .receive) :
    s.mailbox = [] := by
  cases hm : s.mailbox with
  | nil => rfl
  | cons q qs =>
    exfalso
    cases hq : q.finished with
    | false => exact hs _ (.receive hpc hm hq)
    | true => exact hs _ (.finish hpc hm hq)

/-- A child that cannot send finds the inbox full. -/
lemma Stuck.inbox_full (hs : Stuck x capacity s) (hin : s.inbox.length ≤ capacity) {q : Message}
    (hpc : s.child = .send q) : s.inbox.length = capacity := by
  by_contra hne
  exact hs _ (.send hpc (by omega))

/-- Where nobody can move and not all is done, the parent has filled both queues and the child. -/
lemma Stuck.ended (hc : 1 ≤ capacity) (hi : Inv x capacity garbage s) (hs : Stuck x capacity s) :
    Ended s ∨ Deadlocked capacity s ∧ 2 * capacity + 1 < x.size := by
  obtain ⟨hin, hout, hphase⟩ := hi
  cases hpar : s.parent <;> rw [hpar] at hphase
  case check =>
    rcases Nat.lt_or_ge maxSize x.size with hsize | hsize
    · exact (hs _ (.tooLarge hpar hsize)).elim
    · exact (hs _ (.fork hpar hsize)).elim
  case populate rows =>
    obtain ⟨hle, hf, -⟩ := hphase
    have hlt : rows < x.size := lt_of_le_of_ne hle fun h => hs _ (.populated (h ▸ hpar))
    have hfull : s.mailbox.length = capacity := by
      by_contra hne
      exact hs _ (.populate hpar hlt (by omega))
    have hlen := hf.length
    rcases hf.child with hpc | ⟨q, hpc⟩
    · rw [hs.mailbox_nil hpc] at hfull
      simp only [List.length_nil] at hfull
      omega
    · rw [hpc] at hlen
      have hinbox := hs.inbox_full hin hpc
      simp only [ChildPC.pending, List.length_singleton] at hlen
      obtain rfl : rows = 2 * capacity + 1 := by omega
      exact Or.inr ⟨⟨hpar, hfull, ⟨q, hpc⟩, hinbox⟩, hlt⟩
  case empty rows =>
    exfalso
    obtain ⟨hle, hf⟩ := hphase
    have hlt : rows < x.size := lt_of_le_of_ne hle fun h => hs _ (.emptied (h ▸ hpar))
    have hnil : s.inbox = [] := by
      cases hinbox : s.inbox with
      | nil => rfl
      | cons q qs => exact (hs _ (.empty hpar hlt hinbox)).elim
    have hlen := hf.length
    rcases hf.child with hpc | ⟨q, hpc⟩
    · rw [hnil, hs.mailbox_nil hpc, hpc] at hlen
      simp only [ChildPC.pending, List.length_nil] at hlen
      omega
    · have hinbox := hs.inbox_full hin hpc
      rw [hnil, List.length_nil] at hinbox
      omega
  case notify =>
    have hlen := hphase.length
    exact (hs _ (.notify hpar (by omega))).elim
  case waitpid =>
    exfalso
    rcases hphase.child with ⟨hpc, r, hr, -⟩ | ⟨hpc, -⟩ | ⟨hpc, -⟩
    · rw [hs.mailbox_nil hpc] at hr
      cases hr
    · exact hs _ (.freeMailbox hpc)
    · exact hs _ (.waitpid hpar hpc)
  case free => exact (hs _ (.freeInbox hpar)).elim
  case done => exact Or.inl (Or.inr ⟨hpar, hphase.2⟩)
  case exited m => exact Or.inl (Or.inl ⟨m, hpar⟩)

lemma Run.inv (hr : Run x capacity (start garbage) s) : Inv x capacity garbage s :=
  inv_of_run (fun _ _ hi hs => hs.inv hi) inv_start hr

lemma Inv.tooLarge {message : String} (hi : Inv x capacity garbage s)
    (hexit : s.parent = .exited message) : maxSize < x.size := by
  have h := hi.atParent
  rw [hexit] at h
  exact h.2

/-- The element of the product, as `int` arithmetic has it. -/
def product (x : Input) (i j : ℕ) : Int32 :=
  (List.range x.size).foldl (fun r cols => r + x.matrix1 i cols * x.matrix2 cols j) 0

lemma foldl_add (f : ℕ → Int32) (ks : List ℕ) (a : Int32) :
    ks.foldl (fun r k => r + f k) a = a + ks.foldl (fun r k => r + f k) 0 := by
  induction ks generalizing a with
  | nil => exact (Int32.add_zero a).symm
  | cons k ks ih =>
    rw [List.foldl_cons, ih, List.foldl_cons, ih (0 + f k), Int32.zero_add, Int32.add_assoc]

/-- `memset` is given `size` in place of the size of `result`, so what the parent's stack held
beyond is added to every row; the rows are right if and only if that is zero. -/
theorem result_eq (x : Input) (capacity : ℕ) (garbage : ℕ → Int32) (s : State)
    (hr : Run x capacity (start garbage) s) (hdone : s.parent = .done) :
    (∀ i j, i < x.size → j < x.size →
      s.result i j = memset x.size garbage j + product x i j) ∧
    ((∀ i j, i < x.size → j < x.size → s.result i j = product x i j) ↔
      ∀ j, j < x.size → memset x.size garbage j = 0) := by
  have hi := hr.inv.atParent
  rw [hdone] at hi
  have hstored := hi.1.stored
  have hresult : ∀ i j, i < x.size → j < x.size →
      s.result i j = memset x.size garbage j + product x i j := by
    intro i j hi hj
    rw [hstored i j hj, if_pos hi]
    simp only [rowAnswer, answer, if_pos hj]
    exact foldl_add _ _ _
  refine ⟨hresult, fun h j hj => ?_, fun h i j hi hj => ?_⟩
  · have heq := (hresult 0 j (by omega) hj).symm.trans (h 0 j (by omega) hj)
    exact Int32.add_eq_right.mp heq
  · rw [hresult i j hi hj, h j hj, Int32.zero_add]

/-- One row, on a stack that holds 5: `memset` clears the lowest byte, and 7 is the product. -/
theorem result_eq_oneRow :
    ∃ s, Run ⟨1, fun _ _ => 7, fun _ _ => 1⟩ 4 (start fun _ => 5) s ∧ s.result 0 0 = 7 := by
  have hrun : Run ⟨1, fun _ _ => 7, fun _ _ => 1⟩ 4 (start fun _ => 5) _ :=
    .head (.fork rfl (by decide)) (.head (.populate rfl (by decide) (by decide))
      (.head (.populated rfl) (.head (.receive rfl rfl rfl) (.head (.send rfl (by decide))
        (.head (.empty rfl (by decide) rfl) (.head (.emptied rfl)
          (.head (.notify rfl (by decide)) (.head (.finish rfl rfl rfl)
            (.head (.freeMailbox rfl) (.head (.waitpid rfl rfl)
              (.head (.freeInbox rfl) .refl)))))))))))
  exact ⟨_, hrun, ((result_eq _ _ _ _ hrun rfl).1 0 0 (by decide) (by decide)).trans (by decide)⟩

end OsProjects.Mailbox
