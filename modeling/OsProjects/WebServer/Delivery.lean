import OsProjects.WebServer.Queue
import OsProjects.Library.Ring

/-!
# The queue delivers every connection once and in order

`QueueInv` counts: the requests stored and not yet taken are those announced by
`sem_full`, the one the listener is about to announce, and those reserved by
workers that have not read them yet.  With the permits of both semaphores this
leaves the slot at `head` free whenever the listener writes it.
-/

namespace OsProjects.WebServer
open Tally OsProjects.Ring

/-- The listener has stored a request that it has not announced. -/
def ListenerPC.stored : ListenerPC → Bool
  | .reloadHead | .storeHead _ | .postFull => true
  | _ => false

/-- The connection the listener has accepted and not stored. -/
def ListenerPC.held : ListenerPC → List ℤ
  | .waitEmpty ret | .loadHead ret | .storeRequest ret _ => [ret]
  | _ => []

/-- The worker has claimed a request that it has not read. -/
def WorkerPC.reserved : WorkerPC → Bool
  | .lock | .loadTail | .loadRequest _ => true
  | _ => false

/-- The worker is in its critical section. -/
def WorkerPC.locked : WorkerPC → Bool
  | .loadTail | .loadRequest _ | .reloadTail _ | .storeTail _ _ | .unlock _ => true
  | _ => false

/-- `head` after `e` requests have been stored, as the listener sees it. -/
def HeadAt (e head : ℕ) : ListenerPC → Prop
  | .storeRequest _ slot => slot = e % maxRequest ∧ head = e % maxRequest
  | .reloadHead => (head + 1) % maxRequest = e % maxRequest
  | .storeHead value => value = e % maxRequest
  | _ => head = e % maxRequest

/-- `tail` after `t` requests have been taken, as the worker that holds the mutex sees it. -/
def TailAt (t tail : ℕ) : WorkerPC → Prop
  | .loadRequest slot => slot = t % maxRequest ∧ tail = t % maxRequest
  | .reloadTail _ => (tail + 1) % maxRequest = t % maxRequest
  | .storeTail _ value => value = t % maxRequest
  | _ => tail = t % maxRequest

/-- What has become of the connections so far. -/
structure History where
  accepted : List ℤ
  enqueued : List ℤ
  taken : List ℤ
  untaken : ℕ → Option ℤ

def history (es : List Event) : History :=
  ⟨accepted es, enqueued es, taken es, untaken es⟩

def History.record (h : History) : Event → History
  | .accept fd => { h with accepted := h.accepted ++ [fd] }
  | .store slot fd =>
    { h with
      enqueued := h.enqueued ++ [fd]
      untaken := Function.update h.untaken slot (some fd) }
  | .take slot fd =>
    { h with
      taken := h.taken ++ [fd]
      untaken := Function.update h.untaken slot none }
  | .silent => h

lemma history_concat (es : List Event) (e : Event) :
    history (es ++ [e]) = (history es).record e := by
  cases e <;> simp [history, History.record, accepted, enqueued, taken, untaken]

variable {n : ℕ}

/-- The critical section, after `t` requests have been taken. -/
structure Critical (t : ℕ) (mutex : Option (Fin n)) (tail : ℕ) (worker : Fin n → WorkerPC) :
    Prop where
  owner : ∀ w, mutex = some w ↔ (worker w).locked = true
  free : mutex = none → tail = t % maxRequest
  taken : ∀ w, mutex = some w → TailAt t tail (worker w)

/-- The main thread starts a worker only where none is running. -/
structure Roster (main : MainPC) (worker : Fin n → WorkerPC) : Prop where
  absent : ∀ i, main = .create i → ∀ w : Fin n, i ≤ w → worker w = .absent
  exited : ∀ i, main = .respawn i → ∀ w : Fin n, w = i → worker w = .exited

structure QueueInv (h : History) (s : Server n) : Prop where
  permits : s.semEmpty + s.semFull + s.listener.inQueue.toNat +
    tally WorkerPC.inQueue s.worker = maxRequest
  queued : h.enqueued.length =
    h.taken.length + s.semFull + s.listener.stored.toNat + tally WorkerPC.reserved s.worker
  head : HeadAt h.enqueued.length s.head s.listener
  critical : Critical h.taken.length s.mutex s.tail s.worker
  holds : Holds maxRequest s.request h.enqueued h.taken.length
  inOrder : h.taken <+: h.enqueued
  accepted : h.accepted = h.enqueued ++ s.listener.held
  untaken : ∀ slot fd, h.untaken slot = some fd →
    ∃ k, h.taken.length ≤ k ∧ k < h.enqueued.length ∧ k % maxRequest = slot
  roster : Roster s.main s.worker

lemma queueInv_start (n : ℕ) : QueueInv (history []) (start n) := by
  have hnone : ∀ P : WorkerPC → Bool, P .absent = false → tally P (start n).worker = 0 :=
    fun P hP => tally_eq_zero fun _ => hP
  refine
    { permits := ?_
      queued := ?_
      head := rfl
      critical := ⟨fun w => ?_, fun _ => rfl, fun w hw => absurd hw (by simp [start])⟩
      holds := Holds.nil _ _
      inOrder := List.prefix_rfl
      accepted := rfl
      untaken := fun slot fd h => absurd h (by simp [history, WebServer.untaken])
      roster := ⟨fun _ _ _ _ => rfl, fun i hi => absurd hi (by simp [start])⟩ }
  · rw [hnone _ rfl]
    rfl
  · rw [hnone _ rfl]
    rfl
  · simp [start, WorkerPC.locked]

variable {h : History} {s s' : Server n} {e : Event} {w : Fin n} {CRASH : ℤ}

/-! ## The listener -/

/-- A step of the listener that moves no request. -/
lemma QueueInv.listener (hi : QueueInv h s) (semEmpty semFull head : ℕ) (pc : ListenerPC)
    (hpermits : semEmpty + semFull + pc.inQueue.toNat =
      s.semEmpty + s.semFull + s.listener.inQueue.toNat)
    (hqueued : semFull + pc.stored.toNat = s.semFull + s.listener.stored.toNat)
    (hhead : HeadAt h.enqueued.length head pc) (hheld : pc.held = s.listener.held) :
    QueueInv h { s with semEmpty := semEmpty, semFull := semFull, head := head, listener := pc } :=
  { hi with
    permits := by
      have := hi.permits
      simp only
      omega
    queued := by
      have := hi.queued
      simp only
      omega
    head := hhead
    accepted := by
      rw [hi.accepted, hheld] }

/-- A stored request is announced or reserved, and each of these has a permit. -/
lemma QueueInv.queued_le (hi : QueueInv h s) :
    h.enqueued.length + s.semEmpty + s.listener.inQueue.toNat ≤
      h.taken.length + maxRequest + s.listener.stored.toNat := by
  have hpermits := hi.permits
  have hqueued := hi.queued
  have hle : tally WorkerPC.reserved s.worker ≤ tally WorkerPC.inQueue s.worker :=
    tally_mono fun pc hpc => by cases pc <;> simp_all [WorkerPC.reserved, WorkerPC.inQueue]
  omega

/-- The listener writes into a ring that is not full. -/
lemma QueueInv.notFull (hi : QueueInv h s) {ret : ℤ} {slot : ℕ}
    (hpc : s.listener = .storeRequest ret slot) :
    h.enqueued.length < h.taken.length + maxRequest := by
  have hle := hi.queued_le
  rw [hpc] at hle
  simp only [ListenerPC.inQueue, ListenerPC.stored, Bool.toNat_true, Bool.toNat_false] at hle
  omega

/-- The slot it writes holds no request that is still to be taken. -/
lemma QueueInv.slot_free (hi : QueueInv h s) {ret : ℤ} {slot : ℕ}
    (hpc : s.listener = .storeRequest ret slot) : h.untaken slot = none := by
  have hfull := hi.notFull hpc
  have hhead := hi.head
  rw [hpc] at hhead
  cases hu : h.untaken slot with
  | none => rfl
  | some fd =>
    obtain ⟨k, htk, hk, hslot⟩ := hi.untaken slot fd hu
    rw [hhead.1] at hslot
    exact absurd hslot (mod_ne_mod hk (by omega))

lemma QueueInv.store (hi : QueueInv h s) {ret : ℤ} {slot : ℕ}
    (hpc : s.listener = .storeRequest ret slot) :
    QueueInv (h.record (.store slot ret))
      { s with request := Function.update s.request slot ret, listener := .reloadHead } := by
  have hlen : (h.enqueued ++ [ret]).length = h.enqueued.length + 1 := List.length_append
  have hpermits := hi.permits
  have hqueued := hi.queued
  have hhead := hi.head
  have haccepted := hi.accepted
  have hholds := hi.holds.put (hi.notFull hpc) ret
  rw [hpc] at hpermits hqueued hhead haccepted
  obtain ⟨hslot, hhead⟩ := hhead
  rw [← hslot] at hholds
  exact
    { hi with
      permits := hpermits
      queued := by
        simp only [History.record, ListenerPC.stored, Bool.toNat_true, Bool.toNat_false, hlen]
          at hqueued ⊢
        omega
      head := by
        simp only [History.record, HeadAt, hlen]
        rw [hhead]
        exact Nat.mod_add_mod _ _ _
      holds := hholds
      inOrder := hi.inOrder.trans (List.prefix_append _ _)
      accepted := by
        simp only [History.record, ListenerPC.held, List.append_nil]
        exact haccepted
      untaken := by
        intro i fd hu
        simp only [History.record] at hu ⊢
        by_cases his : i = slot
        · exact ⟨h.enqueued.length, hi.holds.le, by omega, by rw [his, hslot]⟩
        · rw [Function.update_of_ne his] at hu
          obtain ⟨k, htk, hk, hik⟩ := hi.untaken i fd hu
          exact ⟨k, htk, by omega, hik⟩ }

lemma ListenerStep.inv (hi : QueueInv h s) (hs : ListenerStep s e s') :
    QueueInv (h.record e) s' := by
  have hhead := hi.head
  cases hs with
  | @accept ret hpc hret =>
    rw [hpc] at hhead
    have hpermits := hi.permits
    have hqueued := hi.queued
    have haccepted := hi.accepted
    rw [hpc] at hpermits hqueued haccepted
    exact
      { hi with
        permits := hpermits
        queued := hqueued
        head := hhead
        accepted := by
          simp only [History.record, ListenerPC.held]
          rw [haccepted]
          simp [ListenerPC.held] }
  | acceptFails hpc =>
    rw [hpc] at hhead
    exact hi.listener s.semEmpty s.semFull s.head .stopped (by rw [hpc]; rfl) (by rw [hpc]; rfl)
      hhead (by rw [hpc]; rfl)
  | @waitEmpty ret hpc hsem =>
    rw [hpc] at hhead
    refine hi.listener (s.semEmpty - 1) s.semFull s.head (.loadHead ret) ?_ (by rw [hpc]; rfl)
      hhead (by rw [hpc]; rfl)
    rw [hpc]
    simp only [ListenerPC.inQueue, Bool.toNat_true, Bool.toNat_false]
    omega
  | @loadHead ret hpc =>
    rw [hpc] at hhead
    exact hi.listener s.semEmpty s.semFull s.head (.storeRequest ret s.head) (by rw [hpc]; rfl)
      (by rw [hpc]; rfl) ⟨hhead, hhead⟩ (by rw [hpc]; rfl)
  | storeRequest hpc => exact hi.store hpc
  | reloadHead hpc =>
    rw [hpc] at hhead
    exact hi.listener s.semEmpty s.semFull s.head (.storeHead ((s.head + 1) % maxRequest))
      (by rw [hpc]; rfl) (by rw [hpc]; rfl) hhead (by rw [hpc]; rfl)
  | @storeHead value hpc =>
    rw [hpc] at hhead
    exact hi.listener s.semEmpty s.semFull value .postFull (by rw [hpc]; rfl) (by rw [hpc]; rfl)
      hhead (by rw [hpc]; rfl)
  | postFull hpc =>
    rw [hpc] at hhead
    refine hi.listener s.semEmpty (s.semFull + 1) s.head .accept ?_ ?_ hhead (by rw [hpc]; rfl)
    · rw [hpc]
      simp only [ListenerPC.inQueue, Bool.toNat_true, Bool.toNat_false]
      omega
    · rw [hpc]
      rfl

/-! ## The workers -/

section Critical

variable {t t' tail tail' : ℕ} {mutex : Option (Fin n)} {worker : Fin n → WorkerPC} {pc : WorkerPC}

/-- Only one worker is in its critical section. -/
lemma Critical.alone (hc : Critical t mutex tail worker) {v : Fin n}
    (hw : (worker w).locked = true) (hv : v ≠ w) : (worker v).locked = false := by
  by_contra hlocked
  have hmv := (hc.owner v).mpr (Bool.eq_true_of_not_eq_false hlocked)
  rw [(hc.owner w).mpr hw] at hmv
  exact hv (Option.some.inj hmv).symm

lemma Critical.outside (hc : Critical t mutex tail worker) (hw : (worker w).locked = false)
    (hpc : pc.locked = false) : Critical t mutex tail (Function.update worker w pc) := by
  have hne : ∀ v, mutex = some v → v ≠ w := by
    intro v hv hvw
    rw [← hvw, (hc.owner v).mp hv] at hw
    exact Bool.false_ne_true hw.symm
  refine ⟨fun v => ?_, hc.free, fun v hv => ?_⟩
  · by_cases hv : v = w
    · rw [hv, Function.update_self, hpc, hc.owner, hw]
    · rw [Function.update_of_ne hv]
      exact hc.owner v
  · rw [Function.update_of_ne (hne v hv)]
    exact hc.taken v hv

/-- The owner of the mutex moves on. -/
lemma Critical.inside (hc : Critical t mutex tail worker) (hw : (worker w).locked = true)
    (hpc : pc.locked = true) (htail : TailAt t' tail' pc) :
    Critical t' mutex tail' (Function.update worker w pc) := by
  have hm := (hc.owner w).mpr hw
  refine ⟨fun v => ?_, fun hnone => ?_, fun v hv => ?_⟩
  · by_cases hv : v = w
    · rw [hv, Function.update_self, hm, hpc]
      exact iff_of_true rfl rfl
    · rw [Function.update_of_ne hv]
      exact hc.owner v
  · rw [hm] at hnone
    exact absurd hnone (Option.some_ne_none w)
  · rw [hm] at hv
    rw [← Option.some.inj hv, Function.update_self]
    exact htail

lemma Critical.enter (hc : Critical t none tail worker) (hpc : pc.locked = true)
    (htail : tail = t % maxRequest → TailAt t tail pc) :
    Critical t (some w) tail (Function.update worker w pc) := by
  refine ⟨fun v => ?_, fun h => absurd h (Option.some_ne_none w), fun v hv => ?_⟩
  · by_cases hv : v = w
    · rw [hv, Function.update_self, hpc]
      exact iff_of_true rfl rfl
    · rw [Function.update_of_ne hv, ← hc.owner v, Option.some.injEq]
      exact iff_of_false (Ne.symm hv) (Option.some_ne_none v).symm
  · rw [← Option.some.inj hv, Function.update_self]
    exact htail (hc.free rfl)

lemma Critical.leave (hc : Critical t mutex tail worker) (hw : (worker w).locked = true)
    (hpc : pc.locked = false) (htail : tail = t % maxRequest) :
    Critical t none tail (Function.update worker w pc) := by
  refine ⟨fun v => ?_, fun _ => htail, fun v hv => absurd hv (Option.some_ne_none v).symm⟩
  by_cases hv : v = w
  · rw [hv, Function.update_self, hpc]
    exact iff_of_false (Option.some_ne_none w).symm Bool.false_ne_true
  · rw [Function.update_of_ne hv, hc.alone hw hv]
    exact iff_of_false (Option.some_ne_none v).symm Bool.false_ne_true

end Critical

lemma Roster.running {main : MainPC} {worker : Fin n → WorkerPC} {pc : WorkerPC}
    (hr : Roster main worker) (hw : worker w ≠ .absent ∧ worker w ≠ .exited) :
    Roster main (Function.update worker w pc) := by
  constructor
  · intro i hmain v hv
    have hne : v ≠ w := fun hvw => hw.1 (hvw ▸ hr.absent i hmain v hv)
    rw [Function.update_of_ne hne]
    exact hr.absent i hmain v hv
  · intro i hmain v hv
    have hne : v ≠ w := fun hvw => hw.2 (hvw ▸ hr.exited i hmain v hv)
    rw [Function.update_of_ne hne]
    exact hr.exited i hmain v hv

lemma prefix_concat {α : Type} {l m : List α} {x : α} (h : l <+: m) (hx : m[l.length]? = some x) :
    l ++ [x] <+: m := by
  obtain ⟨r, rfl⟩ := h
  rw [List.getElem?_append_right le_rfl, Nat.sub_self] at hx
  cases r with
  | nil => cases hx
  | cons y r =>
    rw [show y = x from Option.some.inj hx]
    exact ⟨r, List.append_assoc l [x] r⟩

/-- A thread that is running takes a step that moves no request. -/
lemma QueueInv.worker (hi : QueueInv h s) (semEmpty semFull tail : ℕ) (mutex : Option (Fin n))
    (pc : WorkerPC) (hrunning : s.worker w ≠ .absent ∧ s.worker w ≠ .exited)
    (hpermits : semEmpty + semFull + pc.inQueue.toNat =
      s.semEmpty + s.semFull + (s.worker w).inQueue.toNat)
    (hqueued : semFull + pc.reserved.toNat = s.semFull + (s.worker w).reserved.toNat)
    (hcritical : Critical h.taken.length mutex tail (Function.update s.worker w pc)) :
    QueueInv h
      ({ s with semEmpty := semEmpty, semFull := semFull, mutex := mutex, tail := tail }.goto w
        pc) :=
  { hi with
    permits := by
      have hall := hi.permits
      have htally := tally_update WorkerPC.inQueue s.worker w pc
      simp only [Server.goto]
      omega
    queued := by
      have hall := hi.queued
      have htally := tally_update WorkerPC.reserved s.worker w pc
      simp only [Server.goto]
      omega
    critical := hcritical
    roster := hi.roster.running hrunning }

/-- A worker that reads a slot reads the oldest request. -/
lemma QueueInv.front (hi : QueueInv h s) {slot : ℕ} (hpc : s.worker w = .loadRequest slot) :
    slot = h.taken.length % maxRequest ∧ h.taken.length < h.enqueued.length ∧
      h.enqueued[h.taken.length]? = some (s.request slot) := by
  have howner := (hi.critical.owner w).mpr (by rw [hpc]; rfl)
  have htail := hi.critical.taken w howner
  rw [hpc] at htail
  have hpos : 0 < tally WorkerPC.reserved s.worker := tally_pos (i := w) (by rw [hpc]; rfl)
  have hqueued := hi.queued
  have hlt : h.taken.length < h.enqueued.length := by omega
  refine ⟨htail.1, hlt, ?_⟩
  rw [htail.1]
  exact hi.holds.front hlt

lemma QueueInv.take (hi : QueueInv h s) {slot : ℕ} (hpc : s.worker w = .loadRequest slot) :
    QueueInv (h.record (.take slot (s.request slot)))
      (s.goto w (.reloadTail (s.request slot))) := by
  obtain ⟨hslot, hlt, hfront⟩ := hi.front hpc
  have hlen : (h.taken ++ [s.request slot]).length = h.taken.length + 1 := List.length_append
  have hlocked : (s.worker w).locked = true := by
    rw [hpc]
    rfl
  have htail := hi.critical.taken w ((hi.critical.owner w).mpr hlocked)
  rw [hpc] at htail
  have hinQueue := tally_update WorkerPC.inQueue s.worker w (.reloadTail (s.request slot))
  have hreserved := tally_update WorkerPC.reserved s.worker w (.reloadTail (s.request slot))
  rw [hpc] at hinQueue hreserved
  simp only [WorkerPC.inQueue, WorkerPC.reserved, Bool.toNat_true, Bool.toNat_false]
    at hinQueue hreserved
  refine
    { hi with
      permits := ?_
      queued := ?_
      critical := ?_
      holds := ?_
      inOrder := prefix_concat hi.inOrder hfront
      untaken := fun i fd hu => ?_
      roster := hi.roster.running (by rw [hpc]; exact ⟨nofun, nofun⟩) }
  · have := hi.permits
    simp only [Server.goto]
    omega
  · have := hi.queued
    simp only [Server.goto, History.record, hlen]
    omega
  · simp only [History.record, hlen]
    refine hi.critical.inside hlocked rfl ?_
    change (s.tail + 1) % maxRequest = _
    rw [htail.2]
    exact Nat.mod_add_mod _ _ _
  · simp only [History.record, hlen]
    exact hi.holds.drop hlt
  · simp only [History.record] at hu ⊢
    rw [hlen]
    by_cases his : i = slot
    · rw [his, Function.update_self] at hu
      cases hu
    · rw [Function.update_of_ne his] at hu
      obtain ⟨k, htk, hk, hik⟩ := hi.untaken i fd hu
      -- the request that is taken lies in this slot, so the slot of another one is kept
      have hne : k ≠ h.taken.length := fun hkt => his (by rw [← hik, hkt, hslot])
      exact ⟨k, by omega, hk, hik⟩

lemma WorkerStep.inv (hi : QueueInv h s) (hs : WorkerStep CRASH w s e s') :
    QueueInv (h.record e) s' := by
  have hc := hi.critical
  -- the steps of a running worker leave the roster alone
  have hrunning : ∀ pc, s.worker w = pc → pc ≠ .absent → pc ≠ .exited →
      s.worker w ≠ .absent ∧ s.worker w ≠ .exited := by
    intro pc hpc h1 h2
    rw [hpc]
    exact ⟨h1, h2⟩
  cases hs with
  | waitFull hpc hsem =>
    refine hi.worker s.semEmpty (s.semFull - 1) s.tail s.mutex .lock
      (hrunning _ hpc nofun nofun) ?_ ?_ (hc.outside (by rw [hpc]; rfl) rfl)
    · rw [hpc]
      simp only [WorkerPC.inQueue, Bool.toNat_true, Bool.toNat_false]
      omega
    · rw [hpc]
      simp only [WorkerPC.reserved, Bool.toNat_true, Bool.toNat_false]
      omega
  | lock hpc hmutex =>
    rw [hmutex] at hc
    exact hi.worker s.semEmpty s.semFull s.tail (some w) .loadTail (hrunning _ hpc nofun nofun)
      (by rw [hpc]; rfl) (by rw [hpc]; rfl) (hc.enter rfl id)
  | loadTail hpc =>
    have hlocked : (s.worker w).locked = true := by rw [hpc]; rfl
    have htail := hc.taken w ((hc.owner w).mpr hlocked)
    rw [hpc] at htail
    exact hi.worker s.semEmpty s.semFull s.tail s.mutex (.loadRequest s.tail)
      (hrunning _ hpc nofun nofun) (by rw [hpc]; rfl) (by rw [hpc]; rfl)
      (hc.inside hlocked rfl ⟨htail, htail⟩)
  | loadRequest hpc => exact hi.take hpc
  | @reloadTail ret hpc =>
    have hlocked : (s.worker w).locked = true := by rw [hpc]; rfl
    have htail := hc.taken w ((hc.owner w).mpr hlocked)
    rw [hpc] at htail
    exact hi.worker s.semEmpty s.semFull s.tail s.mutex
      (.storeTail ret ((s.tail + 1) % maxRequest)) (hrunning _ hpc nofun nofun)
      (by rw [hpc]; rfl) (by rw [hpc]; rfl) (hc.inside hlocked rfl htail)
  | @storeTail ret value hpc =>
    have hlocked : (s.worker w).locked = true := by rw [hpc]; rfl
    have htail := hc.taken w ((hc.owner w).mpr hlocked)
    rw [hpc] at htail
    exact hi.worker s.semEmpty s.semFull value s.mutex (.unlock ret) (hrunning _ hpc nofun nofun)
      (by rw [hpc]; rfl) (by rw [hpc]; rfl) (hc.inside hlocked rfl htail)
  | @unlock ret hpc =>
    have hlocked : (s.worker w).locked = true := by rw [hpc]; rfl
    have htail := hc.taken w ((hc.owner w).mpr hlocked)
    rw [hpc] at htail
    exact hi.worker s.semEmpty s.semFull s.tail none (.postEmpty ret)
      (hrunning _ hpc nofun nofun) (by rw [hpc]; rfl) (by rw [hpc]; rfl)
      (hc.leave hlocked rfl htail)
  | @postEmpty ret hpc =>
    refine hi.worker (s.semEmpty + 1) s.semFull s.tail s.mutex (.process ret)
      (hrunning _ hpc nofun nofun) ?_ (by rw [hpc]; rfl) (hc.outside (by rw [hpc]; rfl) rfl)
    rw [hpc]
    simp only [WorkerPC.inQueue, Bool.toNat_true, Bool.toNat_false]
    omega
  | processReturns hpc =>
    exact hi.worker s.semEmpty s.semFull s.tail s.mutex .waitFull (hrunning _ hpc nofun nofun)
      (by rw [hpc]; rfl) (by rw [hpc]; rfl) (hc.outside (by rw [hpc]; rfl) rfl)
  | processCrashes hpc hcrash =>
    exact hi.worker s.semEmpty s.semFull s.tail s.mutex .exited (hrunning _ hpc nofun nofun)
      (by rw [hpc]; rfl) (by rw [hpc]; rfl) (hc.outside (by rw [hpc]; rfl) rfl)

/-! ## The main thread -/

/-- A worker starts where none is running. -/
lemma QueueInv.spawn (hi : QueueInv h s) {main : MainPC}
    (hpc : s.worker w = .absent ∨ s.worker w = .exited)
    (hroster : Roster main (Function.update s.worker w .waitFull)) :
    QueueInv h ({ s with main := main }.goto w .waitFull) := by
  have hinQueue : (s.worker w).inQueue = false := by
    rcases hpc with hpc | hpc <;> rw [hpc] <;> rfl
  have hreserved : (s.worker w).reserved = false := by
    rcases hpc with hpc | hpc <;> rw [hpc] <;> rfl
  have hlocked : (s.worker w).locked = false := by
    rcases hpc with hpc | hpc <;> rw [hpc] <;> rfl
  exact
    { hi with
      permits := by
        simp only [Server.goto]
        rw [tally_update_eq hinQueue.symm]
        exact hi.permits
      queued := by
        simp only [Server.goto]
        rw [tally_update_eq hreserved.symm]
        exact hi.queued
      critical := hi.critical.outside hlocked rfl
      roster := hroster }

lemma MainStep.inv (hi : QueueInv h s) (hs : MainStep s s') : QueueInv h s' := by
  cases hs with
  | @create i hpc hin =>
    refine hi.spawn (Or.inl (hi.roster.absent i hpc ⟨i, hin⟩ le_rfl)) ⟨?_, nofun⟩
    intro j hj v hv
    obtain rfl := MainPC.create.inj hj
    have hne : v ≠ ⟨i, hin⟩ := by
      intro hvi
      rw [hvi] at hv
      exact absurd hv (Nat.not_succ_le_self i)
    rw [Function.update_of_ne hne]
    exact hi.roster.absent i hpc v (by omega)
  | created hpc => exact { hi with roster := ⟨nofun, nofun⟩ }
  | tryjoinFails hpc hin hw => exact { hi with roster := ⟨nofun, nofun⟩ }
  | @tryjoin i hpc hin hw =>
    refine { hi with roster := ⟨nofun, ?_⟩ }
    intro j hj v hv
    obtain rfl := MainPC.respawn.inj hj
    rw [show v = ⟨i, hin⟩ from Fin.ext hv]
    exact hw
  | @respawn i hpc hin =>
    exact hi.spawn (Or.inr (hi.roster.exited i hpc ⟨i, hin⟩ rfl)) ⟨nofun, nofun⟩

/-! ## Runs -/

theorem Exec.inv {es : List Event} (hrun : Exec CRASH es s) : QueueInv (history es) s := by
  induction hrun with
  | start => exact queueInv_start n
  | step _ hstep ih =>
    rw [history_concat]
    cases hstep with
    | listener hs => exact hs.inv ih
    | worker w hs => exact hs.inv ih
    | main hs => exact hs.inv ih

/-- In every reachable state the permits add up to ten, the listener writes only into a slot
without an untaken request, and the connections taken are the first ones of those put into
the queue, which are the first ones of those accepted; at most ten are in between. -/
theorem queue_delivers {es : List Event} (hrun : Exec CRASH es s) :
    s.semEmpty + s.semFull + (if s.listener.inQueue then 1 else 0) +
        (Finset.univ.filter fun w => (s.worker w).inQueue = true).card = maxRequest ∧
      (∀ slot fd s', Step CRASH s (.store slot fd) s' → untaken es slot = none) ∧
      taken es <+: enqueued es ∧ enqueued es <+: accepted es ∧
      (enqueued es).length ≤ (taken es).length + maxRequest := by
  have hi := hrun.inv
  refine ⟨?_, ?_, hi.inOrder, ?_, hi.holds.fits⟩
  · rw [← hi.permits]
    cases s.listener.inQueue <;> rfl
  · intro slot fd s' hstep
    cases hstep with
    | listener hs =>
      cases hs with
      | storeRequest hpc => exact hi.slot_free hpc
    | worker w hs => cases hs
  · change (history es).enqueued <+: (history es).accepted
    rw [hi.accepted]
    exact List.prefix_append _ _

/-- One worker takes the one connection. -/
theorem queue_delivers_one :
    taken [.silent, .accept 4, .silent, .silent, .store 0 4, .silent, .silent, .silent, .silent,
        .silent, .silent, .take 0 4] <+:
      enqueued [.silent, .accept 4, .silent, .silent, .store 0 4, .silent, .silent, .silent,
        .silent, .silent, .silent, .take 0 4] := by
  have h₁ := Exec.step (Exec.start : Exec 0 [] (start 1)) (.main (.create rfl Nat.zero_lt_one))
  have h₂ := h₁.step (.listener (.accept rfl (show (0 : ℤ) ≤ 4 by decide)))
  have h₃ := h₂.step (.listener (.waitEmpty rfl (by decide)))
  have h₄ := h₃.step (.listener (.loadHead rfl))
  have h₅ := h₄.step (.listener (.storeRequest rfl))
  have h₆ := h₅.step (.listener (.reloadHead rfl))
  have h₇ := h₆.step (.listener (.storeHead rfl))
  have h₈ := h₇.step (.listener (.postFull rfl))
  have h₉ := h₈.step (.worker 0 (.waitFull rfl (by decide)))
  have h₁₀ := h₉.step (.worker 0 (.lock rfl rfl))
  have h₁₁ := h₁₀.step (.worker 0 (.loadTail rfl))
  have h₁₂ := h₁₁.step (.worker 0 (.loadRequest rfl))
  exact (queue_delivers h₁₂).2.2.1

end OsProjects.WebServer
