import OsProjects.Paging.Main

/-!
# The loop of `main` is a run

Whatever the file holds, the lines stand for requests and for errors, and the
machine plays no part in telling which.  Up to a request that indexes outside of
the page tables, `main` serves the requests as `run` does and prints the errors in
between.
-/

namespace OsProjects.Paging
open Stdio

/-- What a line that is no comment amounts to. -/
inductive Item
  | invalid (input : Text)
  | request (r : Request)
  deriving DecidableEq

/-- Only a write makes use of the byte. -/
def Request.used (r : Request) : Request :=
  { r with byte := if r.reqType = 'W' then r.byte else 0 }

def decode : Request → List Text → List Item
  | _, [] => []
  | v, input :: rest =>
    if isComment input then decode v rest
    else
      let values := (scan requestFormat input).1
      let v := v.assign values
      (if v.incomplete values.length then .invalid input else .request v.used) :: decode v rest

/-- The request is refused, or its indices into the page tables are not negative. -/
def Config.Admits (c : Config) : Item → Bool
  | .invalid _ => true
  | .request r => !decide (c.Outside r)

/-- The items in front of the first request that is not admitted. -/
def admitted (c : Config) (items : List Item) : List Item := items.takeWhile c.Admits

def requests (items : List Item) : List Request :=
  items.filterMap fun i => match i with
    | .invalid _ => none
    | .request r => some r

/-- The output for the items, of which the requests have got these replies. -/
def report : List Item → List Reply → Text
  | [], _ => []
  | .invalid input :: items, replies => errorText input ++ report items replies
  | .request _ :: _, [] => []
  | .request r :: items, reply :: replies =>
    reply.text r ++ if reply.exits then [] else report items replies

/-- How `main` ends after these replies.  `last` tells what comes after the last of them. -/
def ending (last : VM → Final) (replies : List Reply) : Except Fault VM → Final
  | .error e => .fault e
  | .ok s => if replies.any Reply.exits then .returned s else last s

/-- What comes after the admitted items: the end of the file, if they are all. -/
def lastOf (c : Config) (items : List Item) (s : VM) : Final :=
  if items.all c.Admits then .finished s else .outside

/-! ## The byte -/

variable {c : Config} {s : VM} {v r : Request}

@[simp] lemma used_pid (r : Request) : r.used.pid = r.pid := rfl

@[simp] lemma used_reqType (r : Request) : r.used.reqType = r.reqType := rfl

@[simp] lemma used_virtAddr (r : Request) : r.used.virtAddr = r.virtAddr := rfl

/-- Requests that differ in a byte that is not used. -/
lemma used_congr {r q : Request} (hpid : r.pid = q.pid) (htype : r.reqType = q.reqType)
    (haddr : r.virtAddr = q.virtAddr) (hbyte : r.reqType = 'W' → r.byte = q.byte) :
    r.used = q.used := by
  have h : (if r.reqType = 'W' then r.byte else 0) = if q.reqType = 'W' then q.byte else 0 := by
    rw [← htype]
    split_ifs with h
    · exact hbyte h
    · rfl
  simp only [Request.used, hpid, htype, haddr] at h ⊢
  rw [h]

lemma serve_used (c : Config) (s : VM) (r : Request) : serve c s r.used = serve c s r := by
  by_cases hW : r.reqType = 'W'
  · have h : r.used = r := by rw [Request.used, if_pos hW]
    rw [h]
  · have hW' : ¬ r.used.reqType = 'W' := hW
    simp only [serve, if_neg hW, if_neg hW']
    rfl

lemma text_used (r : Request) (reply : Reply) : reply.text r.used = reply.text r := by
  cases reply <;> rfl

/-- The fourth conversion of the format is a `%c`. -/
lemma charValue_of_scan {input : Text} (h : 3 < (scan requestFormat input).1.length) :
    ∃ a, charValue (scan requestFormat input).1 3 = some a := by
  have hk := scan_stores requestFormat input
  generalize (scan requestFormat input).1 = values at h hk
  have h3 := List.prefix_iff_getElem?.mp hk 3 (by simpa using h)
  rw [List.getElem_map] at h3
  rw [charValue, List.getElem?_eq_getElem h]
  cases hv : values[3] with
  | char a => exact ⟨a, rfl⟩
  | int z =>
    rw [hv] at h3
    cases h3

/-- What a line amounts to does not depend on the byte that is left in the variable. -/
lemma decode_congr {v v' : Request} (hpid : v.pid = v'.pid) (htype : v.reqType = v'.reqType)
    (haddr : v.virtAddr = v'.virtAddr) (inputs : List Text) :
    decode v inputs = decode v' inputs := by
  induction inputs generalizing v v' with
  | nil => rfl
  | cons input rest ih =>
    rw [decode, decode]
    split_ifs with hc
    · exact ih hpid htype haddr
    · have hf := @charValue_of_scan input
      generalize (scan requestFormat input).1 = values at hf ⊢
      have h1 : (v.assign values).pid = (v'.assign values).pid := by
        simp only [Request.assign, hpid]
      have h2 : (v.assign values).reqType = (v'.assign values).reqType := by
        simp only [Request.assign, htype]
      have h3 : (v.assign values).virtAddr = (v'.assign values).virtAddr := by
        simp only [Request.assign, haddr]
      have hinc : (v.assign values).incomplete values.length =
          (v'.assign values).incomplete values.length := by
        rw [Request.incomplete, Request.incomplete, h2]
      simp only [ih h1 h2 h3, hinc]
      split_ifs with hi
      · rfl
      -- a write has got its byte from the line
      · have hbyte : (v.assign values).reqType = 'W' →
            (v.assign values).byte = (v'.assign values).byte := by
          intro hW
          have hlen : 3 < values.length := by
            rw [h2] at hW
            simp only [Request.incomplete, hW] at hi
            have h4 : 4 ≤ values.length := by simpa using hi
            exact h4
          obtain ⟨a, ha⟩ := hf hlen
          simp only [Request.assign, ha, Option.map_some, Option.getD_some]
        rw [used_congr h1 h2 h3 hbyte]

/-! ## The loop -/

lemma decode_after (v : Request) (reply : Reply) (inputs : List Text) :
    decode (v.after reply) inputs = decode v inputs := by
  apply decode_congr <;> cases reply <;> rfl

lemma ending_cons {last : VM → Final} {reply : Reply} (h : reply.exits = false)
    (replies : List Reply) (final : Except Fault VM) :
    ending last (reply :: replies) final = ending last replies final := by
  cases final with
  | error e => rfl
  | ok s => simp only [ending, List.any_cons, h, Bool.false_or]

lemma admitted_cons {i : Item} {items : List Item} (h : c.Admits i = true) :
    admitted c (i :: items) = i :: admitted c items := List.takeWhile_cons_of_pos h

lemma lastOf_cons {i : Item} {items : List Item} (h : c.Admits i = true) :
    lastOf c (i :: items) = lastOf c items := by
  funext s
  rw [lastOf, lastOf, List.all_cons, h, Bool.true_and]

lemma admits_request : c.Admits (.request r) = true ↔ ¬ c.Outside r := by
  unfold Config.Admits
  rw [Bool.not_eq_true', decide_eq_false_iff_not]

/-- What `main` does with the items, from the machine `s` on. -/
def runItems (c : Config) (s : VM) (items : List Item) : Text × Final :=
  let ran := run c s (requests (admitted c items))
  (report (admitted c items) ran.1, ending (lastOf c items) ran.1 ran.2)

/-- The loop of `main` on any lines. -/
lemma mainLoop_eq_run (c : Config) (s : VM) (v : Request) (inputs : List Text) :
    mainLoop c s v inputs = runItems c s (decode v inputs) := by
  induction inputs generalizing s v with
  | nil => rfl
  | cons input rest ih =>
    rw [mainLoop, decode]
    split_ifs with hc
    · exact ih s v
    · generalize (scan requestFormat input).1 = values
      simp only
      split_ifs with hi hout
      · rw [ih]
        have hadmits : c.Admits (.invalid input) = true := rfl
        unfold runItems
        rw [admitted_cons hadmits, lastOf_cons hadmits]
        rfl
      · -- nothing is served from here on
        have hnot : ¬ c.Admits (.request (v.assign values).used) = true := fun h =>
          admits_request.mp h hout
        have hlast : lastOf c (.request (v.assign values).used :: decode (v.assign values) rest) =
            fun _ => .outside := by
          funext s
          rw [lastOf, List.all_cons, Bool.eq_false_iff.mpr hnot, Bool.false_and]
          rfl
        unfold runItems
        rw [hlast, admitted, List.takeWhile_cons_of_neg hnot]
        rfl
      -- the machine is asked, and what it answers for a read goes into the byte
      · have hadmits : c.Admits (.request (v.assign values).used) = true := admits_request.mpr hout
        have hreq : requests (.request (v.assign values).used ::
            admitted c (decode (v.assign values) rest)) =
              (v.assign values).used :: requests (admitted c (decode (v.assign values) rest)) := rfl
        unfold runItems
        rw [admitted_cons hadmits, lastOf_cons hadmits, hreq, run, serve_used]
        cases hs : serve c s (v.assign values) with
        | error e => rfl
        | ok p =>
          obtain ⟨reply, s'⟩ := p
          simp only
          split_ifs with he
          · simp [report, ending, text_used, he]
          · have he' : reply.exits = false := Bool.eq_false_iff.mpr he
            rw [ih, decode_after]
            simp only [runItems, report, text_used, he', ending_cons he']
            rfl

end OsProjects.Paging
