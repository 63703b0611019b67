import OsProjects.Paging.Lines
import OsProjects.Paging.Statistics

/-!
# `input_gen.c`: generated files are served to their end

Whatever `rand` returns, `main` accepts the generated file and serves its
requests, one access for each.
-/

namespace OsProjects.Paging
open Stdio

/-- The variables of one turn of the loop, and the number of calls of `rand` behind it. -/
def draw (maxVPN numProc : ℤ) (rand : ℕ → ℕ) (k : ℕ) : Request × ℕ :=
  let pid := (rand k : ℤ).tmod numProc
  let page := (rand (k + 1) : ℤ).tmod maxVPN
  let offset := rand (k + 2) % 0xFF
  let reqType := if rand (k + 3) % 10 < 5 then 'R' else 'W'
  let addr := Int32.ofInt (page <<< (8 : ℕ) + offset)
  if reqType = 'R' then (⟨pid, reqType, addr, 0⟩, k + 4)
  else
    let byte := if rand (k + 4) % 2 = 0 then rand (k + 5) % 26 + 65 else rand (k + 5) % 26 + 97
    (⟨pid, reqType, addr, UInt8.ofNat byte⟩, k + 6)

def genLoop (maxVPN numProc : ℤ) (rand : ℕ → ℕ) : ℕ → ℕ → Text
  | 0, _ => []
  | n + 1, k =>
    let (r, k) := draw maxVPN numProc rand k
    r.line ++ "\n".toList ++ genLoop maxVPN numProc rand n k

/-- `main` of `input_gen.c` with its three arguments. -/
def inputGen (maxVPN numProc reqNum : ℤ) (rand : ℕ → ℕ) : Text :=
  headerLine maxVPN numProc ++ "\n".toList ++ genLoop maxVPN numProc rand reqNum.toNat 0

/-- The requests of the loop, one after another. -/
def draws (maxVPN numProc : ℤ) (rand : ℕ → ℕ) : ℕ → ℕ → List Request
  | 0, _ => []
  | n + 1, k =>
    (draw maxVPN numProc rand k).1 :: draws maxVPN numProc rand n (draw maxVPN numProc rand k).2

/-- An access has gone through. -/
def Reply.Accessed (reply : Reply) : Prop :=
  ∃ addr byte hit, reply = .read addr byte (some hit) ∨ reply = .written addr byte (some hit)

variable {c : Config} {rand : ℕ → ℕ}

/-! ## The requests -/

lemma length_draws (a b : ℤ) (rand : ℕ → ℕ) (n k : ℕ) : (draws a b rand n k).length = n := by
  induction n generalizing k with
  | zero => rfl
  | succ n ih => rw [draws, List.length_cons, ih]

lemma genLoop_eq (a b : ℤ) (rand : ℕ → ℕ) (n k : ℕ) :
    genLoop a b rand n k = fileText ((draws a b rand n k).map Entry.request) := by
  induction n generalizing k with
  | zero => rfl
  | succ n ih =>
    rw [genLoop, draws, List.map_cons, fileText, List.flatMap_cons]
    simp only [ih]
    rfl

/-- The number drawn by `rand() % m`. -/
lemma tmod_bounds {m : ℤ} (hm : 1 ≤ m) (x : ℕ) : 0 ≤ (x : ℤ).tmod m ∧ (x : ℤ).tmod m < m :=
  ⟨Int.tmod_nonneg m (Int.natCast_nonneg x), Int.tmod_lt_of_pos x (by omega)⟩

/-- The address of a page and an offset within it. -/
lemma addr_bounds {maxVPN : ℤ} (h1 : 1 ≤ maxVPN) (hV : maxVPN ≤ 256) (x y : ℕ) :
    0 ≤ (Int32.ofInt (((x : ℤ).tmod maxVPN) <<< (8 : ℕ) + ((y % 0xFF : ℕ) : ℤ))).toInt ∧
      (Int32.ofInt (((x : ℤ).tmod maxVPN) <<< (8 : ℕ) + ((y % 0xFF : ℕ) : ℤ))).toInt <
        256 * maxVPN := by
  obtain ⟨h0, hlt⟩ := tmod_bounds h1 x
  have hshift : (x : ℤ).tmod maxVPN <<< (8 : ℕ) = (x : ℤ).tmod maxVPN * 256 := Int.shiftLeft_eq _ _
  rw [hshift, int32_ofInt_toInt (by omega) (by norm_num; omega)]
  omega

section Draw

variable (a b : ℤ) (rand : ℕ → ℕ) (k : ℕ)

/-- The address drawn. -/
def drawnAddr : Int32 :=
  Int32.ofInt ((rand (k + 1) : ℤ).tmod a <<< (8 : ℕ) + ((rand (k + 2) % 0xFF : ℕ) : ℤ))

/-- The letter drawn. -/
def drawnByte : UInt8 :=
  UInt8.ofNat (if rand (k + 4) % 2 = 0 then rand (k + 5) % 26 + 65 else rand (k + 5) % 26 + 97)

lemma draw_read (h : rand (k + 3) % 10 < 5) :
    draw a b rand k = (⟨(rand k : ℤ).tmod b, 'R', drawnAddr a rand k, 0⟩, k + 4) := by
  simp only [draw, if_pos h, if_true]
  rfl

lemma draw_write (h : ¬ rand (k + 3) % 10 < 5) :
    draw a b rand k =
      (⟨(rand k : ℤ).tmod b, 'W', drawnAddr a rand k, drawnByte rand k⟩, k + 6) := by
  simp only [draw, if_neg h]
  rfl

end Draw

lemma draw_inRange (hV : c.maxVPN ≤ 256) (rand : ℕ → ℕ) (k : ℕ) :
    c.InRange (draw c.maxVPN c.maxPID rand k).1 := by
  have hpid := tmod_bounds c.one_le_maxPID (rand k)
  have haddr := addr_bounds c.one_le_maxVPN hV (rand (k + 1)) (rand (k + 2))
  by_cases h : rand (k + 3) % 10 < 5
  · rw [draw_read _ _ _ _ h]
    exact ⟨hpid.1, hpid.2, haddr.1, haddr.2, Or.inl rfl⟩
  · rw [draw_write _ _ _ _ h]
    exact ⟨hpid.1, hpid.2, haddr.1, haddr.2, Or.inr rfl⟩

/-- A letter, of either case. -/
lemma letter_ok (x y : ℕ) :
    isSpace (charOf (UInt8.ofNat (if x % 2 = 0 then y % 26 + 65 else y % 26 + 97))) = false ∧
      UInt8.ofNat (if x % 2 = 0 then y % 26 + 65 else y % 26 + 97) ≠ 0 := by
  have hy : y % 26 < 26 := Nat.mod_lt _ (by decide)
  generalize y % 26 = z at hy
  split_ifs <;> interval_cases z <;> decide

lemma draw_writable (hP : c.maxPID ≤ 256) (rand : ℕ → ℕ) (k : ℕ) :
    (draw c.maxVPN c.maxPID rand k).1.Writable := by
  have hpid := tmod_bounds c.one_le_maxPID (rand k)
  have hbyte := letter_ok (rand (k + 4)) (rand (k + 5))
  have hge : -2 ^ 31 ≤ (rand k : ℤ).tmod c.maxPID := by norm_num; omega
  have hlt : (rand k : ℤ).tmod c.maxPID < 2 ^ 31 := by norm_num; omega
  by_cases h : rand (k + 3) % 10 < 5
  · have hR : ¬ 'R' = 'W' := by decide
    rw [draw_read _ _ _ _ h]
    exact ⟨hge, hlt, Or.inl rfl, fun h => absurd h hR, fun h => absurd h hR⟩
  · rw [draw_write _ _ _ _ h]
    exact ⟨hge, hlt, Or.inr rfl, fun _ => hbyte.1, fun _ => hbyte.2⟩

lemma of_mem_draws {P : Request → Prop} (hP : ∀ k, P (draw c.maxVPN c.maxPID rand k).1) (n k : ℕ) :
    ∀ r ∈ draws c.maxVPN c.maxPID rand n k, P r := by
  induction n generalizing k with
  | zero => simp [draws]
  | succ n ih =>
    rw [draws]
    exact List.forall_mem_cons.mpr ⟨hP k, ih _⟩

/-- A read has no byte and a write keeps its own. -/
lemma draw_used (rand : ℕ → ℕ) (k : ℕ) :
    (draw c.maxVPN c.maxPID rand k).1.used = (draw c.maxVPN c.maxPID rand k).1 := by
  by_cases h : rand (k + 3) % 10 < 5
  · rw [draw_read _ _ _ _ h]
    rfl
  · rw [draw_write _ _ _ _ h]
    rfl

/-! ## The run -/

lemma Reply.Accessed.exits {reply : Reply} (h : reply.Accessed) : reply.exits = false := by
  obtain ⟨addr, byte, hit, rfl | rfl⟩ := h <;> rfl

lemma replyOf_accessed (s : VM) (r : Request) (f : ℤ) (b : Bool) : (replyOf s r f b).Accessed := by
  unfold replyOf
  split_ifs
  · exact ⟨_, _, _, Or.inl rfl⟩
  · exact ⟨_, _, _, Or.inr rfl⟩

lemma run_accessed (hl : c.replacementPolicy = .LRU → 2 ≤ c.maxPFN) {s : VM} {rs : List Request}
    (hrs : ∀ r ∈ rs, c.InRange r) (hi : Inv c s) :
    ∀ reply ∈ (run c s rs).1, reply.Accessed := by
  induction rs generalizing s with
  | nil => simp [run]
  | cons r rs ih =>
    have hr := hrs r List.mem_cons_self
    rcases serve_in_range hi hr with ⟨f, b, s₁, ha, hserve⟩ | ⟨h1, h2, -⟩
    · rw [run, hserve]
      simp only [replyOf_exits]
      exact List.forall_mem_cons.mpr ⟨replyOf_accessed s₁ r f b,
        ih (fun q hq => hrs q (List.mem_cons_of_mem _ hq)) ((ha.inv hi hr.hasPage).finish r f)⟩
    · have := hl h1
      omega

/-- One line for each request, in their order. -/
def servedLines (rs : List Request) (replies : List Reply) : Text :=
  (List.zipWith (fun r reply => reply.text r) rs replies).flatten

lemma report_requests {rs : List Request} {replies : List Reply}
    (h : ∀ reply ∈ replies, reply.Accessed) :
    report (rs.map Item.request) replies = servedLines rs replies := by
  induction rs generalizing replies with
  | nil => rfl
  | cons r rs ih =>
    cases replies with
    | nil => rfl
    | cons reply replies =>
      obtain ⟨hreply, hrest⟩ := List.forall_mem_cons.mp h
      rw [List.map_cons, report, hreply.exits, servedLines, List.zipWith_cons_cons,
        List.flatten_cons, ih hrest]
      rfl

lemma ending_accessed {last : VM → Final} {replies : List Reply}
    (h : ∀ reply ∈ replies, reply.Accessed) (t : VM) : ending last replies (.ok t) = last t := by
  have hany : replies.any Reply.exits = false :=
    List.any_eq_false.mpr fun reply hr => by rw [(h reply hr).exits]; exact Bool.false_ne_true
  rw [ending, hany]
  rfl

/-- Requests in range are all served. -/
lemma runItems_inRange {s t : VM} {rs : List Request} (hrs : ∀ r ∈ rs, c.InRange r)
    (hacc : ∀ reply ∈ (run c s rs).1, reply.Accessed) (hrun : (run c s rs).2 = .ok t) :
    runItems c s (rs.map Item.request) = (servedLines rs (run c s rs).1, .finished t) := by
  have hall : ∀ i ∈ rs.map Item.request, c.Admits i = true := by
    intro i hi
    obtain ⟨r, hr, rfl⟩ := List.mem_map.mp hi
    apply admits_request.mpr
    obtain ⟨hpid, -, haddr, -, -⟩ := hrs r hr
    have hVPN := virtAddr_shiftRight r.virtAddr
    rintro ⟨-, -, hneg | hneg⟩ <;> omega
  have hadmitted : admitted c (rs.map Item.request) = rs.map Item.request :=
    List.takeWhile_eq_self_iff.mpr hall
  have hrequests : requests (rs.map Item.request) = rs := by
    rw [requests, List.filterMap_map]
    exact List.filterMap_some
  have hlast : lastOf c (rs.map Item.request) = .finished := by
    funext s
    rw [lastOf, List.all_eq_true.mpr hall]
    rfl
  unfold runItems
  rw [hadmitted, hrequests, hlast]
  dsimp only
  rw [report_requests hacc, hrun, ending_accessed hacc]

/-- Each generated request is served by an access of its page and reported on a line of its
own, and the file is served to its end, where the statistics are printed. -/
theorem main_inputGen (percent : Int32 → Int32 → Text) (c : Config) (hF : c.maxPFN ≤ 256)
    (hV : c.maxVPN ≤ 256) (hP : c.maxPID ≤ 256)
    (hl : c.replacementPolicy = .LRU → 2 ≤ c.maxPFN) (policy : Int32)
    (hp : ReplacementPolicy.ofInt policy.toInt = some c.replacementPolicy) (reqNum : ℤ)
    (rand : ℕ → ℕ) (junk : VM) (v : Request) :
    ∃ t, (run c (start c junk) (draws c.maxVPN c.maxPID rand reqNum.toNat 0)).2 = .ok t ∧
      (run c (start c junk) (draws c.maxVPN c.maxPID rand reqNum.toNat 0)).1.length =
        reqNum.toNat ∧
      (∀ reply ∈ (run c (start c junk) (draws c.maxVPN c.maxPID rand reqNum.toNat 0)).1,
        reply.Accessed) ∧
      t.stats.hitCount + t.stats.missCount = reqNum.toNat ∧
      main percent (Int32.ofInt c.maxPFN) policy (inputGen c.maxVPN c.maxPID reqNum rand) junk v =
        .ran (bannerText c.maxVPN c.maxPFN c.maxPID policy.toInt c.replacementPolicy ++
          servedLines (draws c.maxVPN c.maxPID rand reqNum.toNat 0)
            (run c (start c junk) (draws c.maxVPN c.maxPID rand reqNum.toNat 0)).1 ++
          ("=====================================\n".toList ++ ptPrintStats percent t.stats))
          (.finished t) := by
  have hrs := of_mem_draws (draw_inRange hV rand) reqNum.toNat 0
  have hwritable := of_mem_draws (draw_writable hP rand) reqNum.toNat 0
  have hused : ∀ r ∈ draws c.maxVPN c.maxPID rand reqNum.toNat 0, r.used = r :=
    of_mem_draws (draw_used rand) reqNum.toNat 0
  have hlen := length_draws c.maxVPN c.maxPID rand reqNum.toNat 0
  have hgen := genLoop_eq c.maxVPN c.maxPID rand reqNum.toNat 0
  generalize draws c.maxVPN c.maxPID rand reqNum.toNat 0 = rs at *
  have hi := inv_start c junk
  have hacc := run_accessed hl hrs hi
  obtain ⟨t, hrun, hc⟩ := run_counted hl hrs hi (Counted.start c junk)
  have hcount : t.stats.hitCount + t.stats.missCount = 0 + rs.length := hc.requests
  refine ⟨t, hrun, (run_length hl hrs hi).trans hlen, hacc, by omega, ?_⟩
  -- only the byte of a read is lost between the two programs, and it is 0
  have hok : ∀ e ∈ rs.map Entry.request, e.Ok := by
    intro e he
    obtain ⟨r, hr, rfl⟩ := List.mem_map.mp he
    exact hwritable r hr
  have hrequests : fileRequests (rs.map Entry.request) = rs := by
    rw [fileRequests, List.filterMap_map]
    refine (List.filterMap_congr fun r hr => ?_).trans List.filterMap_some
    exact congrArg some (hused r hr)
  have hfile : inputGen c.maxVPN c.maxPID reqNum rand =
      headerLine c.maxVPN c.maxPID ++ '\n' :: fileText (rs.map Entry.request) := by
    rw [inputGen, hgen, List.append_assoc]
    rfl
  rw [hfile, main_header percent hF hV hP policy hp, mainLoop_fileText hok, hrequests,
    runItems_inRange hrs hacc hrun]
  rfl

/-- `rand` that counts up. -/
def counting : ℕ → ℕ := fun k => k

/-- One hit and three misses. -/
def quarters (n _ : Int32) : Text := if n = 1 then "25.00".toList else "75.00".toList

theorem main_inputGen_counting :
    ∃ t,
      (run (twoFrames .LRU) (start (twoFrames .LRU) default) (draws 3 1 counting 4 0)).2 = .ok t ∧
      t.stats.hitCount + t.stats.missCount = 4 ∧
      main quarters 2 2 (inputGen 3 1 4 counting) default zeroVars =
        .ran (bannerText 3 2 1 2 .LRU ++
          servedLines (draws 3 1 counting 4 0)
            (run (twoFrames .LRU) (start (twoFrames .LRU) default) (draws 3 1 counting 4 0)).1 ++
          ("=====================================\n".toList ++ ptPrintStats quarters t.stats))
          (.finished t) := by
  obtain ⟨t, hrun, -, -, hcount, hmain⟩ := main_inputGen quarters (twoFrames .LRU) (by decide)
    (by decide) (by decide) (fun _ => by decide) 2 (by decide) 4 counting default zeroVars
  exact ⟨t, hrun, hcount, hmain⟩

end OsProjects.Paging
