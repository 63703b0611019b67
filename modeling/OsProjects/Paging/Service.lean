import OsProjects.Paging.Tables

/-!
# Requests in range

A request in range is served by one access of its page, after which the page's
frame is read or written.  Such requests never end the loop of `main`.
-/

namespace OsProjects.Paging

/-! ## Splitting the address -/

lemma virtAddr_shiftRight (v : Int32) : (v >>> 8).toInt = v.toInt / 256 := by
  rw [← Int32.toInt_toBitVec, Int32.toBitVec_shiftRight, BitVec.toInt_sshiftRight']
  rw [show ((8 : Int32).toBitVec.smod 32).toNat = 8 from rfl, Int.shiftRight_eq_div_pow]
  rfl

lemma virtAddr_and (v : Int32) : (v &&& 0x00FF).toInt = v.toInt % 256 := by
  rw [← Int32.toInt_toBitVec, Int32.toBitVec_and, ← Int32.toInt_toBitVec]
  generalize v.toBitVec = x
  have h : (x &&& (0x00FF : Int32).toBitVec).toNat = x.toNat % 256 := by
    rw [BitVec.toNat_and]
    exact Nat.and_two_pow_sub_one_eq_mod _ 8
  have := x.isLt
  rw [BitVec.toInt_eq_toNat_cond, BitVec.toInt_eq_toNat_cond, h]
  split_ifs <;> omega

/-- The frame number of a physical address. -/
lemma physicalAddr_shiftRight {f o : ℤ} (h0 : 0 ≤ o) (ho : o < 256) :
    (f <<< (8 : ℕ) + o) >>> (8 : ℕ) = f := by
  rw [Int.shiftLeft_eq, Int.shiftRight_eq_div_pow]
  norm_num
  omega

/-! ## Requests -/

/-- The page a request addresses. -/
def Request.page (r : Request) : IPTE := ⟨r.pid, (r.virtAddr >>> 8).toInt⟩

def Request.offset (r : Request) : ℤ := (r.virtAddr &&& 0x00FF).toInt

structure Config.InRange (c : Config) (r : Request) : Prop where
  pid_nonneg : 0 ≤ r.pid
  pid_lt : r.pid < c.maxPID
  virtAddr_nonneg : 0 ≤ r.virtAddr.toInt
  virtAddr_lt : r.virtAddr.toInt < 256 * c.maxVPN
  reqType : r.reqType = 'R' ∨ r.reqType = 'W'

instance (c : Config) (r : Request) : Decidable (c.InRange r) :=
  decidable_of_iff (0 ≤ r.pid ∧ r.pid < c.maxPID ∧ 0 ≤ r.virtAddr.toInt ∧
      r.virtAddr.toInt < 256 * c.maxVPN ∧ (r.reqType = 'R' ∨ r.reqType = 'W'))
    ⟨fun ⟨h1, h2, h3, h4, h5⟩ => ⟨h1, h2, h3, h4, h5⟩,
      fun ⟨h1, h2, h3, h4, h5⟩ => ⟨h1, h2, h3, h4, h5⟩⟩

lemma Request.offset_bounds (r : Request) : 0 ≤ r.offset ∧ r.offset < 256 := by
  rw [Request.offset, virtAddr_and]
  omega

lemma Config.InRange.hasPage {c : Config} {r : Request} (hr : c.InRange r) : c.HasPage r.page := by
  have h1 := hr.virtAddr_nonneg
  have h2 := hr.virtAddr_lt
  refine ⟨hr.pid_nonneg, hr.pid_lt, ?_, ?_⟩
  · change 0 ≤ (r.virtAddr >>> 8).toInt
    rw [virtAddr_shiftRight]
    omega
  · change (r.virtAddr >>> 8).toInt < _
    rw [virtAddr_shiftRight]
    omega

/-- The machine after `main` has accessed the frame `f` for the request. -/
def finish (s : VM) (r : Request) (f : ℤ) : VM :=
  if r.reqType = 'W' then { s with physicalMem := Function.update s.physicalMem f r.byte } else s

/-- What `main` prints for a request in range served from the frame `f`. -/
def replyOf (s : VM) (r : Request) (f : ℤ) (hit : Bool) : Reply :=
  if r.reqType = 'R' then .read (f <<< (8 : ℕ) + r.offset) (s.physicalMem f) (some hit)
  else .written (f <<< (8 : ℕ) + r.offset) r.byte (some hit)

lemma pagefaultHandler_fill {c : Config} {s : VM} {p : IPTE} {w : Char} {repl : Replacer}
    (h0 : 0 ≤ s.nextFreeFrame) (hn : s.nextFreeFrame < c.maxPFN)
    (hr : noteFill c s.repl s.nextFreeFrame = .ok repl) :
    pagefaultHandler c s p.pid p.VPN w = .ok (s.nextFreeFrame,
      loadPage { s with repl := repl, nextFreeFrame := s.nextFreeFrame + 1 } p.pid p.VPN w
        s.nextFreeFrame) := by
  have hfree : getFreeframe c s =
      (s.nextFreeFrame, { s with nextFreeFrame := s.nextFreeFrame + 1 }) := if_neg (by omega)
  simp only [pagefaultHandler, hfree, if_neg (show ¬ s.nextFreeFrame < 0 by omega), hr, bind,
    Except.bind]

lemma pagefaultHandler_evict {c : Config} {s : VM} {p : IPTE} {w : Char} {repl : Replacer} {f : ℤ}
    (hn : s.nextFreeFrame = c.maxPFN) (hr : findReplacement c s.repl = .ok (f, repl)) :
    pagefaultHandler c s p.pid p.VPN w =
      .ok (f, loadPage (evictPage { s with repl := repl } f) p.pid p.VPN w f) := by
  have hfree : getFreeframe c s = (-1, s) := if_pos (by omega)
  simp only [pagefaultHandler, hfree, if_pos (show (-1 : ℤ) < 0 by omega), hr, bind, Except.bind]

lemma pagefaultHandler_error {c : Config} {s : VM} {p : IPTE} {w : Char} {e : Fault}
    (hn : s.nextFreeFrame = c.maxPFN) (hr : findReplacement c s.repl = .error e) :
    pagefaultHandler c s p.pid p.VPN w = .error e := by
  have hfree : getFreeframe c s = (-1, s) := if_pos (by omega)
  simp only [pagefaultHandler, hfree, if_pos (show (-1 : ℤ) < 0 by omega), hr, bind, Except.bind]

lemma getPFN_hit {c : Config} {s : VM} {p : IPTE} {w : Char} {repl : Replacer}
    (hv : (s.pte p).valid = true) (hr : noteHit c s.repl (s.pte p).PFN = .ok repl) :
    getPFN c s p.pid p.VPN w = .ok ((s.pte p).PFN,
      { (if w = 'W' then writePTE s p.pid p.VPN { s.pte p with dirty := true } else s) with
        repl := repl }) := by
  have hrepl : (if w = 'W' then writePTE s p.pid p.VPN { s.pte p with dirty := true }
      else s).repl = s.repl := by
    split_ifs <;> rfl
  rw [← hrepl] at hr
  rw [getPFN, if_pos (show (readPTE s p.pid p.VPN).valid = true from hv)]
  change (noteHit c (if w = 'W' then writePTE s p.pid p.VPN { s.pte p with dirty := true }
      else s).repl (s.pte p).PFN >>= _) = _
  rw [hr]
  rfl

lemma getPFN_miss {c : Config} {s : VM} {p : IPTE} {w : Char} (hv : (s.pte p).valid = false) :
    getPFN c s p.pid p.VPN w = .ok (-1, s) :=
  if_neg (show ¬ (s.pte p).valid = true by rw [hv]; exact Bool.false_ne_true)

/-- The address check lets every request for a page that exists pass. -/
lemma MMU_of_hasPage {c : Config} {s : VM} {r : Request} (hp : c.HasPage r.page) :
    MMU c s r.pid r.virtAddr r.reqType = (do
      let (PFN, s) ← getPFN c s r.page.pid r.page.VPN r.reqType
      if PFN ≥ 0 then
        .ok (PFN <<< (8 : ℕ) + r.offset, some true,
          { s with stats := { s.stats with hitCount := s.stats.hitCount + 1 } })
      else
        let (PFN, s) ← pagefaultHandler c (countMiss s s.repl s.nextFreeFrame)
          r.page.pid r.page.VPN r.reqType
        .ok (PFN <<< (8 : ℕ) + r.offset, some false, s)) := by
  have h1 : (r.virtAddr >>> 8).toInt < c.maxVPN := hp.2.2.2
  have h2 : (r.virtAddr &&& 0x00FF).toInt < 256 := r.offset_bounds.2
  rw [MMU, if_neg (by omega)]
  rfl

lemma MMU_of_access {c : Config} {s s' : VM} {r : Request} {f : ℤ} {b : Bool}
    (hs : Inv c s) (hp : c.HasPage r.page) (ha : Access c s r.page r.reqType f b s') :
    MMU c s r.pid r.virtAddr r.reqType = .ok (f <<< (8 : ℕ) + r.offset, some b, s') := by
  rw [MMU_of_hasPage hp]
  cases ha with
  | hit hv hn =>
    obtain ⟨h0, -, -⟩ := hs.tables.valid _ hp hv
    simp only [getPFN_hit hv hn, bind, Except.bind, if_pos (show (s.pte r.page).PFN ≥ 0 from h0)]
    simp only [afterHit]
    split_ifs <;> rfl
  | fill hv hlt hn =>
    simp only [getPFN_miss hv, bind, Except.bind, if_neg (show ¬ (-1 : ℤ) ≥ 0 by omega)]
    rw [pagefaultHandler_fill (s := countMiss s s.repl s.nextFreeFrame) hs.tables.nonneg hlt hn]
    rfl
  | evict hv hlt hn h0 hf =>
    simp only [getPFN_miss hv, bind, Except.bind, if_neg (show ¬ (-1 : ℤ) ≥ 0 by omega)]
    rw [pagefaultHandler_evict (s := countMiss s s.repl s.nextFreeFrame) hlt hn]
    rfl

/-- The frame of an access is checked again by `main`, and then read or written. -/
lemma serve_of_hasPage {c : Config} {s s' : VM} {r : Request} {f : ℤ} {b : Bool} (hs : Inv c s)
    (hp : c.HasPage r.page) (ha : Access c s r.page r.reqType f b s') :
    serve c s r = .ok (if r.reqType = 'R' ∨ r.reqType = 'W' then replyOf s' r f b
      else .invalidReqType, finish s' r f) := by
  have hpid : ¬ r.pid > c.maxPID - 1 := by
    have : r.pid < c.maxPID := hp.2.1
    omega
  obtain ⟨h0, hf, -, -⟩ := ha.resident hs.tables hp
  obtain ⟨ho0, ho⟩ := r.offset_bounds
  have hshift : (f <<< (8 : ℕ) + r.offset) >>> (8 : ℕ) = f := physicalAddr_shiftRight ho0 ho
  have haddr : ¬ f <<< (8 : ℕ) + r.offset < 0 := by
    rw [Int.shiftLeft_eq]
    norm_num
    omega
  rw [serve, if_neg hpid, MMU_of_access hs hp ha]
  simp only [bind, Except.bind, hshift]
  rw [if_neg (by omega)]
  by_cases hR : r.reqType = 'R'
  · rw [if_pos hR, readPhysicalMem, hshift, if_neg (by omega), if_pos (Or.inl hR), replyOf,
      if_pos hR, finish, if_neg (by rw [hR]; decide)]
  · by_cases hW : r.reqType = 'W'
    · rw [if_neg hR, if_pos hW, writePhysicalMem, hshift, if_neg (by omega), if_pos (Or.inr hW),
        replyOf, if_neg hR, finish, if_pos hW]
    · rw [if_neg hR, if_neg hW, if_neg (not_or.mpr ⟨hR, hW⟩), finish, if_neg hW]

lemma serve_of_access {c : Config} {s s' : VM} {r : Request} {f : ℤ} {b : Bool} (hs : Inv c s)
    (hr : c.InRange r) (ha : Access c s r.page r.reqType f b s') :
    serve c s r = .ok (replyOf s' r f b, finish s' r f) := by
  rw [serve_of_hasPage hs hr.hasPage ha, if_pos hr.reqType]

/-- A request in range is served by an access; LRU on a single frame may fault instead. -/
theorem serve_in_range {c : Config} {s : VM} {r : Request} (hs : Inv c s) (hr : c.InRange r) :
    (∃ f b s', Access c s r.page r.reqType f b s' ∧
      serve c s r = .ok (replyOf s' r f b, finish s' r f)) ∨
    (c.replacementPolicy = .LRU ∧ c.maxPFN = 1 ∧ serve c s r = .error .nullPointer) := by
  rcases exists_access hs hr.hasPage r.reqType with ⟨f, b, s', ha⟩ | ⟨hl, h1, hv, hn, herr⟩
  · exact Or.inl ⟨f, b, s', ha, serve_of_access hs hr ha⟩
  · have hpid : ¬ r.pid > c.maxPID - 1 := by
      have := hr.pid_lt
      omega
    refine Or.inr ⟨hl, h1, ?_⟩
    rw [serve, if_neg hpid, MMU_of_hasPage hr.hasPage]
    simp only [getPFN_miss hv, bind, Except.bind, if_neg (show ¬ (-1 : ℤ) ≥ 0 by omega)]
    rw [pagefaultHandler_error (s := countMiss s s.repl s.nextFreeFrame) hn herr]

lemma replyOf_exits (s : VM) (r : Request) (f : ℤ) (b : Bool) :
    (replyOf s r f b).exits = false := by
  unfold replyOf
  split_ifs <;> rfl

/-- Finishing a request stores into the physical memory, at most. -/
lemma finish_frame (s : VM) (r : Request) (f : ℤ) : finish s r f =
    { s with physicalMem :=
        if r.reqType = 'W' then Function.update s.physicalMem f r.byte else s.physicalMem } := by
  unfold finish
  split_ifs <;> rfl

@[simp] lemma finish_pte (s : VM) (r : Request) (f : ℤ) (p : IPTE) :
    (finish s r f).pte p = s.pte p := by
  rw [finish_frame]
  rfl

@[simp] lemma finish_swap (s : VM) (r : Request) (f : ℤ) (p : IPTE) :
    (finish s r f).swap p = s.swap p := by
  rw [finish_frame]
  rfl

@[simp] lemma finish_invertedPageTable (s : VM) (r : Request) (f : ℤ) :
    (finish s r f).invertedPageTable = s.invertedPageTable := by
  rw [finish_frame]

@[simp] lemma finish_nextFreeFrame (s : VM) (r : Request) (f : ℤ) :
    (finish s r f).nextFreeFrame = s.nextFreeFrame := by
  rw [finish_frame]

@[simp] lemma finish_repl (s : VM) (r : Request) (f : ℤ) : (finish s r f).repl = s.repl := by
  rw [finish_frame]

@[simp] lemma finish_stats (s : VM) (r : Request) (f : ℤ) : (finish s r f).stats = s.stats := by
  rw [finish_frame]

lemma Inv.finish {c : Config} {s : VM} (hs : Inv c s) (r : Request) (f : ℤ) :
    Inv c (finish s r f) := by
  constructor
  · constructor <;> simp only [finish_nextFreeFrame, finish_pte, finish_invertedPageTable]
    · exact hs.tables.nonneg
    · exact hs.tables.le
    · exact hs.tables.valid
    · exact hs.tables.frame
  · rw [finish_nextFreeFrame, finish_repl]
    exact hs.policy

lemma start_pte {c : Config} {p : IPTE} (junk : VM) (hp : c.HasPage p) :
    (start c junk).pte p = { junk.pte p with valid := false } := if_pos hp

lemma start_swap {c : Config} {p : IPTE} (junk : VM) (hp : c.HasPage p) :
    (start c junk).swap p = swapInit := if_pos hp

lemma inv_start (c : Config) (junk : VM) : Inv c (start c junk) := by
  have hpos := c.one_le_maxPFN
  refine ⟨⟨le_rfl, by change 0 ≤ c.maxPFN; omega, ?_, ?_⟩, policyInv_start c⟩
  · intro p hp hv
    rw [start_pte junk hp] at hv
    exact absurd hv Bool.false_ne_true
  · intro f h0 hf
    exact absurd (show f < 0 from hf) (by omega)

/-! ## Runs -/

/-- The machines passed by requests in range, one access for each request. -/
inductive Served (c : Config) : VM → List Request → VM → Prop
  | nil (s : VM) : Served c s [] s
  | cons {s s₁ s₂ : VM} {r : Request} {rs : List Request} {f : ℤ} {b : Bool}
      (ha : Access c s r.page r.reqType f b s₁) (hs : Served c (finish s₁ r f) rs s₂) :
      Served c s (r :: rs) s₂

lemma Served.append {c : Config} {s s' : VM} {rs qs : List Request} :
    Served c s (rs ++ qs) s' ↔ ∃ m, Served c s rs m ∧ Served c m qs s' := by
  induction rs generalizing s with
  | nil =>
    constructor
    · exact fun h => ⟨s, .nil s, h⟩
    · rintro ⟨m, hm, h⟩
      cases hm
      exact h
  | cons r rs ih =>
    constructor
    · rintro (_ | ⟨ha, hs⟩)
      obtain ⟨m, hm, h⟩ := ih.mp hs
      exact ⟨m, .cons ha hm, h⟩
    · rintro ⟨m, _ | ⟨ha, hs⟩, h⟩
      exact .cons ha (ih.mpr ⟨m, hs, h⟩)

theorem Served.inv {c : Config} {s s' : VM} {rs : List Request} (hrs : ∀ r ∈ rs, c.InRange r)
    (hi : Inv c s) (hs : Served c s rs s') : Inv c s' := by
  induction hs with
  | nil => exact hi
  | cons ha _ ih =>
    refine ih (fun r hr => hrs r (List.mem_cons_of_mem _ hr)) ?_
    exact (ha.inv hi (hrs _ List.mem_cons_self).hasPage).finish _ _

/-- The MMU is a function, so there is one access and one run. -/
lemma access_unique {c : Config} {s s' t : VM} {r : Request} {f f' : ℤ} {b b' : Bool}
    (hs : Inv c s) (hr : c.InRange r) (ha : Access c s r.page r.reqType f b s')
    (ha' : Access c s r.page r.reqType f' b' t) : f = f' ∧ s' = t := by
  have h := (MMU_of_access hs hr.hasPage ha).symm.trans (MMU_of_access hs hr.hasPage ha')
  simp only [Except.ok.injEq, Prod.mk.injEq] at h
  obtain ⟨haddr, -, hst⟩ := h
  obtain ⟨ho0, ho⟩ := r.offset_bounds
  refine ⟨?_, hst⟩
  rw [← physicalAddr_shiftRight (f := f) ho0 ho, haddr, physicalAddr_shiftRight ho0 ho]

lemma Served.unique {c : Config} {s s' t : VM} {rs : List Request} (hi : Inv c s)
    (hrs : ∀ r ∈ rs, c.InRange r) (hs : Served c s rs s') (ht : Served c s rs t) : s' = t := by
  induction hs with
  | nil =>
    cases ht
    rfl
  | cons ha _ ih =>
    cases ht with
    | cons ha' ht =>
      have hr := hrs _ List.mem_cons_self
      obtain ⟨rfl, rfl⟩ := access_unique hi hr ha ha'
      exact ih ((ha.inv hi hr.hasPage).finish _ _)
        (fun q hq => hrs q (List.mem_cons_of_mem _ hq)) ht

/-- The loop of `main` serves every request in range, unless LRU has a single frame. -/
theorem run_served {c : Config} (hl : c.replacementPolicy = .LRU → 2 ≤ c.maxPFN) {s : VM}
    {rs : List Request} (hrs : ∀ r ∈ rs, c.InRange r) (hi : Inv c s) :
    ∃ s', Served c s rs s' ∧ (run c s rs).2 = .ok s' := by
  induction rs generalizing s with
  | nil => exact ⟨s, .nil s, rfl⟩
  | cons r rs ih =>
    have hr := hrs r List.mem_cons_self
    rcases serve_in_range hi hr with ⟨f, b, s₁, ha, hserve⟩ | ⟨h1, h2, -⟩
    · obtain ⟨s₂, hs₂, hrun⟩ := ih (fun q hq => hrs q (List.mem_cons_of_mem _ hq))
        ((ha.inv hi hr.hasPage).finish r f)
      refine ⟨s₂, .cons ha hs₂, ?_⟩
      rw [run, hserve]
      simp only [replyOf_exits]
      exact hrun
    · have := hl h1
      omega

lemma run_length {c : Config} {s : VM} (hl : c.replacementPolicy = .LRU → 2 ≤ c.maxPFN)
    {rs : List Request} (hrs : ∀ r ∈ rs, c.InRange r) (hi : Inv c s) :
    (run c s rs).1.length = rs.length := by
  induction rs generalizing s with
  | nil => rfl
  | cons r rs ih =>
    have hr := hrs r List.mem_cons_self
    rcases serve_in_range hi hr with ⟨f, b, s₁, ha, hserve⟩ | ⟨h1, h2, -⟩
    · rw [run, hserve]
      simp only [replyOf_exits]
      simpa using ih (fun q hq => hrs q (List.mem_cons_of_mem _ hq))
        ((ha.inv hi hr.hasPage).finish r f)
    · have := hl h1
      omega

/-- After every request the two tables are inverse to each other on the frames in use. -/
theorem tables_inverse (c : Config) (hl : c.replacementPolicy = .LRU → 2 ≤ c.maxPFN) (junk : VM)
    (rs : List Request) (hrs : ∀ r ∈ rs, c.InRange r) :
    ∃ s, (run c (start c junk) rs).2 = .ok s ∧ s.nextFreeFrame ≤ c.maxPFN ∧
      (∀ p, c.HasPage p → (readPTE s p.pid p.VPN).valid = true →
        0 ≤ (readPTE s p.pid p.VPN).PFN ∧ (readPTE s p.pid p.VPN).PFN < s.nextFreeFrame ∧
          readIPTE s (readPTE s p.pid p.VPN).PFN = p) ∧
      (∀ f, 0 ≤ f → f < s.nextFreeFrame → c.HasPage (readIPTE s f) ∧
        (readPTE s (readIPTE s f).pid (readIPTE s f).VPN).valid = true ∧
          (readPTE s (readIPTE s f).pid (readIPTE s f).VPN).PFN = f) ∧
      ∀ p q, c.HasPage p → c.HasPage q → (readPTE s p.pid p.VPN).valid = true →
        (readPTE s q.pid q.VPN).valid = true →
          (readPTE s p.pid p.VPN).PFN = (readPTE s q.pid q.VPN).PFN → p = q := by
  obtain ⟨s, hs, hrun⟩ := run_served hl hrs (inv_start c junk)
  have ht := (hs.inv hrs (inv_start c junk)).tables
  refine ⟨s, hrun, ht.le, ht.valid, ht.frame, fun p q hp hq hpv hqv hpq => ?_⟩
  have h1 := (ht.valid p hp hpv).2.2
  have h2 := (ht.valid q hq hqv).2.2
  rw [← h1, ← h2]
  exact congrArg s.invertedPageTable hpq

/-- A machine of two frames for three pages of one process. -/
def twoFrames (policy : ReplacementPolicy) : Config where
  replacementPolicy := policy
  maxPFN := 2
  maxVPN := 3
  maxPID := 1
  one_le_maxPFN := by decide
  one_le_maxVPN := by decide
  one_le_maxPID := by decide

/-- All three pages are touched, the first one again after its replacement. -/
def threePages : List Request :=
  [⟨0, 'W', 3, 66⟩, ⟨0, 'R', 256, 0⟩, ⟨0, 'W', 515, 67⟩, ⟨0, 'R', 0, 0⟩]

/-- The machine behind a run that ends well. -/
def after (c : Config) (s : VM) (rs : List Request) : VM :=
  match (run c s rs).2 with
  | .ok t => t
  | .error _ => s

lemma after_of_run {c : Config} {s t : VM} {rs : List Request} (h : (run c s rs).2 = .ok t) :
    after c s rs = t := by
  rw [after, h]

/-- The pages 0 and 2 are resident at the end, in different frames. -/
theorem tables_inverse_threePages :
    ∃ s, (run (twoFrames .LRU) (start (twoFrames .LRU) default) threePages).2 = .ok s ∧
      s.nextFreeFrame ≤ 2 ∧ readIPTE s (readPTE s 0 0).PFN = ⟨0, 0⟩ ∧
      (readPTE s (readIPTE s 0).pid (readIPTE s 0).VPN).PFN = 0 ∧
      (readPTE s 0 0).PFN ≠ (readPTE s 0 2).PFN := by
  obtain ⟨s, hrun, hle, hvalid, hframe, hinj⟩ := tables_inverse (twoFrames .LRU)
    (fun _ => by decide) default threePages (by decide)
  have hstate := after_of_run hrun
  have h0 : (readPTE s 0 0).valid = true := by
    rw [← hstate]
    decide
  have h2 : (readPTE s 0 2).valid = true := by
    rw [← hstate]
    decide
  have hfree : 0 < s.nextFreeFrame := by
    rw [← hstate]
    decide
  have hpage0 : (twoFrames .LRU).HasPage ⟨0, 0⟩ := by
    unfold Config.HasPage
    decide
  have hpage2 : (twoFrames .LRU).HasPage ⟨0, 2⟩ := by
    unfold Config.HasPage
    decide
  refine ⟨s, hrun, hle, (hvalid ⟨0, 0⟩ hpage0 h0).2.2, (hframe 0 le_rfl hfree).2.2, fun hsame => ?_⟩
  have heq : (⟨0, 0⟩ : IPTE) = ⟨0, 2⟩ := hinj _ _ hpage0 hpage2 h0 h2 hsame
  exact absurd heq (by decide)

end OsProjects.Paging
