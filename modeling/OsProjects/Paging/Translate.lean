import OsProjects.Paging.Service

/-!
# Which addresses are translated

`main` refuses a pid that is too large and the MMU a page number that is too
large.  Neither looks at the sign, and a negative pid or address indexes the page
tables.
-/

namespace OsProjects.Paging

variable {c : Config} {s s' : VM} {r : Request} {p : IPTE} {pid : ℤ} {virtAddr : Int32} {w : Char}

/-! ## The page table entries that are read or written -/

def pagefaultHandlerIndexed (c : Config) (s : VM) (pid VPN : ℤ) : List IPTE :=
  if (getFreeframe c s).1 < 0 then
    match findReplacement c s.repl with
    | .ok (PFN, _) => [readIPTE s PFN, ⟨pid, VPN⟩]
    | .error _ => []
  else [⟨pid, VPN⟩]

def getPFNIndexed (pid VPN : ℤ) : List IPTE := [⟨pid, VPN⟩]

def MMUIndexed (c : Config) (s : VM) (pid : ℤ) (virtAddr : Int32) : List IPTE :=
  let VPN := (virtAddr >>> 8).toInt
  let offset := (virtAddr &&& 0x00FF).toInt
  if VPN ≥ c.maxVPN ∨ offset > 256 then []
  else
    getPFNIndexed pid VPN ++
      if (readPTE s pid VPN).valid then [] else pagefaultHandlerIndexed c s pid VPN

/-- The addresses of the page tables, and only these, are translated. -/
structure Translates (c : Config) (s : VM) (pid : ℤ) (virtAddr : Int32) (w : Char) : Prop where
  valid : 0 ≤ pid → pid < c.maxPID → 0 ≤ virtAddr.toInt → virtAddr.toInt < 256 * c.maxVPN →
    ∃ PFN hit s', MMU c s pid virtAddr w = .ok (256 * PFN + virtAddr.toInt % 256, some hit, s') ∧
      0 ≤ PFN ∧ PFN < c.maxPFN ∧ readIPTE s' PFN = ⟨pid, virtAddr.toInt / 256⟩
  refused : ¬ (0 ≤ pid ∧ pid < c.maxPID ∧ 0 ≤ virtAddr.toInt ∧
      virtAddr.toInt < 256 * c.maxVPN) →
    MMU c s pid virtAddr w = .ok (-1, none, s) ∧ MMUIndexed c s pid virtAddr = []
  indexed : ∀ p ∈ MMUIndexed c s pid virtAddr, c.HasPage p

/-! ## What is indexed -/

lemma MMU_refused (h : 256 * c.maxVPN ≤ virtAddr.toInt) :
    MMU c s pid virtAddr w = .ok (-1, none, s) ∧ MMUIndexed c s pid virtAddr = [] := by
  have hVPN : (virtAddr >>> 8).toInt ≥ c.maxVPN := by
    rw [virtAddr_shiftRight]
    omega
  exact ⟨by rw [MMU, if_pos (Or.inl hVPN)], by rw [MMUIndexed, if_pos (Or.inl hVPN)]⟩

lemma MMUIndexed_of_lt (h : virtAddr.toInt < 256 * c.maxVPN) :
    MMUIndexed c s pid virtAddr = ⟨pid, (virtAddr >>> 8).toInt⟩ ::
      if (readPTE s pid (virtAddr >>> 8).toInt).valid then []
      else pagefaultHandlerIndexed c s pid (virtAddr >>> 8).toInt := by
  have hVPN : (virtAddr >>> 8).toInt < c.maxVPN := by
    rw [virtAddr_shiftRight]
    omega
  have hoffset : (virtAddr &&& 0x00FF).toInt < 256 := by
    rw [virtAddr_and]
    omega
  rw [MMUIndexed, if_neg (by omega)]
  rfl

/-- Beside its own entry, an access indexes that of the page it replaces. -/
lemma Access.indexed {f : ℤ} {b : Bool} (hi : Inv c s) (hp : c.HasPage r.page)
    (ha : Access c s r.page r.reqType f b s') :
    MMUIndexed c s r.pid r.virtAddr = r.page ::
      if (s.pte r.page).valid = true then []
      else if s.nextFreeFrame = c.maxPFN then [s.invertedPageTable f, r.page] else [r.page] := by
  have hlt : r.virtAddr.toInt < 256 * c.maxVPN := by
    have h : (r.virtAddr >>> 8).toInt < c.maxVPN := hp.2.2.2
    rw [virtAddr_shiftRight] at h
    omega
  rw [MMUIndexed_of_lt hlt]
  change r.page :: (if (s.pte r.page).valid = true then [] else
    pagefaultHandlerIndexed c s r.page.pid r.page.VPN) = _
  congr 1
  cases ha with
  | hit hv hr => rw [if_pos hv, if_pos hv]
  | fill hv hn hr =>
    have h0 := hi.tables.nonneg
    rw [hv, if_neg Bool.false_ne_true, if_neg Bool.false_ne_true, if_neg hn.ne,
      pagefaultHandlerIndexed, getFreeframe, if_neg (show ¬ s.nextFreeFrame ≥ c.maxPFN by omega),
      if_neg (show ¬ s.nextFreeFrame < 0 by omega)]
  | evict hv hn hr h0 hf =>
    rw [hv, if_neg Bool.false_ne_true, if_neg Bool.false_ne_true, if_pos hn,
      pagefaultHandlerIndexed, hi.tables.getFreeframe_full.mpr hn, if_pos (by decide), hr]
    rfl

/-- What an access indexes are entries of pages that exist. -/
lemma Access.indexed_hasPage {f : ℤ} {b : Bool} (hi : Inv c s) (hp : c.HasPage r.page)
    (ha : Access c s r.page r.reqType f b s') :
    ∀ q ∈ MMUIndexed c s r.pid r.virtAddr, c.HasPage q := by
  rw [ha.indexed hi hp, List.forall_mem_cons]
  refine ⟨hp, fun q hq => ?_⟩
  split_ifs at hq with hv hn
  · exact absurd hq List.not_mem_nil
  · -- the victim's entry is found through the inverted page table
    have hframe : c.HasPage (s.invertedPageTable f) := by
      obtain ⟨h0, hf, -, -⟩ := ha.resident hi.tables hp
      exact (hi.tables.frame f h0 (by omega)).1
    rcases List.mem_cons.mp hq with rfl | hq
    · exact hframe
    · exact List.mem_singleton.mp hq ▸ hp
  · exact List.mem_singleton.mp hq ▸ hp

lemma Request.hasPage (hpid : ¬ r.pid > c.maxPID - 1) (hle : ¬ 256 * c.maxVPN ≤ r.virtAddr.toInt)
    (h0 : 0 ≤ r.pid) (hv0 : 0 ≤ r.virtAddr.toInt) : c.HasPage r.page := by
  have hVPN : r.page.VPN = r.virtAddr.toInt / 256 := virtAddr_shiftRight r.virtAddr
  refine ⟨h0, ?_, ?_, ?_⟩
  · show r.pid < c.maxPID
    omega
  · omega
  · omega

lemma translates_of_hasPage (hl : c.replacementPolicy = .LRU → 2 ≤ c.maxPFN) (hi : Inv c s)
    (hp : c.HasPage r.page) : Translates c s r.pid r.virtAddr r.reqType := by
  have hpage : r.page = ⟨r.pid, r.virtAddr.toInt / 256⟩ := by
    rw [← virtAddr_shiftRight]
    rfl
  rcases exists_access hi hp r.reqType with ⟨f, b, s', ha⟩ | ⟨hpol, h1, -⟩
  · obtain ⟨hf0, hf, -, hipt⟩ := ha.resident hi.tables hp
    refine ⟨fun _ _ _ _ => ⟨f, b, s', ?_, hf0, hf, hipt.trans hpage⟩, fun hout => ?_,
      ha.indexed_hasPage hi hp⟩
    · rw [MMU_of_access hi hp ha, Int.shiftLeft_eq, Request.offset, virtAddr_and, mul_comm]
      rfl
    · rw [hpage] at hp
      obtain ⟨h0, hpid, hV0, hV⟩ := hp
      change 0 ≤ r.virtAddr.toInt / 256 at hV0
      change r.virtAddr.toInt / 256 < c.maxVPN at hV
      exact (hout ⟨h0, hpid, by omega, by omega⟩).elim
  · have := hl hpol
    omega

/-- Only the sign of the pid and of the address is not checked. -/
lemma translates_iff (hl : c.replacementPolicy = .LRU → 2 ≤ c.maxPFN) (hi : Inv c s)
    (hpid : pid ≤ c.maxPID - 1) : Translates c s pid virtAddr w ↔
      256 * c.maxVPN ≤ virtAddr.toInt ∨ (0 ≤ pid ∧ 0 ≤ virtAddr.toInt) := by
  constructor
  · intro h
    by_contra hno
    obtain ⟨hlt, hsign⟩ := not_or.mp hno
    -- neither check refuses it, so its own entry is indexed
    have hnil := (h.refused fun ⟨h1, _, h2, _⟩ => hsign ⟨h1, h2⟩).2
    rw [MMUIndexed_of_lt (by omega)] at hnil
    cases hnil
  · intro h
    by_cases hle : 256 * c.maxVPN ≤ virtAddr.toInt
    · obtain ⟨hrefused, hnil⟩ : MMU c s pid virtAddr w = .ok (-1, none, s) ∧
        MMUIndexed c s pid virtAddr = [] := MMU_refused hle
      refine ⟨fun _ _ _ hlt => absurd hlt (by omega), fun _ => ⟨hrefused, hnil⟩, ?_⟩
      rw [hnil]
      exact fun p hp => absurd hp List.not_mem_nil
    · obtain ⟨h0, hv0⟩ := h.resolve_left hle
      have hp : c.HasPage (Request.page ⟨pid, w, virtAddr, 0⟩) :=
        Request.hasPage (show ¬ pid > c.maxPID - 1 by omega) hle h0 hv0
      exact translates_of_hasPage hl hi hp

/-! ## Runs -/

/-- The requests that are refused or in range, whatever they ask for. -/
def Config.WellSigned (c : Config) (r : Request) : Prop :=
  r.pid > c.maxPID - 1 ∨ 256 * c.maxVPN ≤ r.virtAddr.toInt ∨ (0 ≤ r.pid ∧ 0 ≤ r.virtAddr.toInt)

lemma Config.WellSigned.cases (h : c.WellSigned r) :
    r.pid > c.maxPID - 1 ∨ 256 * c.maxVPN ≤ r.virtAddr.toInt ∨ c.HasPage r.page := by
  by_cases hpid : r.pid > c.maxPID - 1
  · exact Or.inl hpid
  · by_cases hle : 256 * c.maxVPN ≤ r.virtAddr.toInt
    · exact Or.inr (Or.inl hle)
    · obtain ⟨h0, hv0⟩ := (h.resolve_left hpid).resolve_left hle
      exact Or.inr (Or.inr (Request.hasPage hpid hle h0 hv0))

/-- Such a request keeps the invariant. -/
lemma serve_wellSigned (hl : c.replacementPolicy = .LRU → 2 ≤ c.maxPFN) (hi : Inv c s)
    (hr : c.WellSigned r) : ∃ reply s', serve c s r = .ok (reply, s') ∧ Inv c s' := by
  rcases hr.cases with hpid | hle | hp
  · exact ⟨.invalidPID, s, by rw [serve, if_pos hpid], hi⟩
  · by_cases hpid : r.pid > c.maxPID - 1
    · exact ⟨.invalidPID, s, by rw [serve, if_pos hpid], hi⟩
    · refine ⟨.invalidPhysicalAddress (-1), s, ?_, hi⟩
      have hneg : (-1 : ℤ) < 0 := by decide
      rw [serve, if_neg hpid, (MMU_refused hle).1]
      simp only [bind, Except.bind]
      rw [if_pos (Or.inr (Or.inr hneg))]
  · rcases exists_access hi hp r.reqType with ⟨f, b, s', ha⟩ | ⟨hpol, h1, -⟩
    · exact ⟨_, _, serve_of_hasPage hi hp ha, (ha.inv hi hp).finish r f⟩
    · have := hl hpol
      omega

lemma run_wellSigned (hl : c.replacementPolicy = .LRU → 2 ≤ c.maxPFN) {rs : List Request}
    (hrs : ∀ r ∈ rs, c.WellSigned r) (hi : Inv c s) :
    ∃ s', (run c s rs).2 = .ok s' ∧ Inv c s' := by
  induction rs generalizing s with
  | nil => exact ⟨s, rfl, hi⟩
  | cons r rs ih =>
    obtain ⟨reply, s₁, hserve, hi₁⟩ := serve_wellSigned hl hi (hrs r List.mem_cons_self)
    rw [run, hserve]
    cases hexits : reply.exits with
    | true => exact ⟨s₁, by simp only [hexits, if_true], hi₁⟩
    | false =>
      obtain ⟨s', hrun, hi'⟩ := ih (fun q hq => hrs q (List.mem_cons_of_mem _ hq)) hi₁
      refine ⟨s', ?_, hi'⟩
      simp only [hexits]
      exact hrun

/-- After any requests that are refused or in range, the next one that `main` lets through is
translated or refused as it should be, unless its pid or its address is negative. -/
theorem MMU_translates_iff (c : Config) (hl : c.replacementPolicy = .LRU → 2 ≤ c.maxPFN)
    (junk : VM) (rs : List Request) (hrs : ∀ r ∈ rs, c.WellSigned r) :
    ∃ s, (run c (start c junk) rs).2 = .ok s ∧
      ∀ (pid : ℤ) (virtAddr : Int32) (w : Char), pid ≤ c.maxPID - 1 →
        (Translates c s pid virtAddr w ↔
          256 * c.maxVPN ≤ virtAddr.toInt ∨ (0 ≤ pid ∧ 0 ≤ virtAddr.toInt)) := by
  obtain ⟨s, hrun, hi⟩ := run_wellSigned hl hrs (inv_start c junk)
  exact ⟨s, hrun, fun pid virtAddr w hpid => translates_iff hl hi hpid⟩

instance (c : Config) (r : Request) : Decidable (c.WellSigned r) := by
  unfold Config.WellSigned
  infer_instance

/-- A page is loaded, the next request comes from a process that does not exist, and the last
one has a negative address but is refused for its pid. -/
theorem MMU_translates_iff_refused :
    ∃ s, (run (twoFrames .LRU) (start (twoFrames .LRU) default)
        [⟨0, 'W', 3, 66⟩, ⟨7, 'R', 0, 0⟩, ⟨7, 'R', -1, 0⟩]).2 = .ok s ∧
      Translates (twoFrames .LRU) s 0 515 'R' := by
  obtain ⟨s, hrun, htrans⟩ := MMU_translates_iff (twoFrames .LRU) (fun _ => by decide) default
    [⟨0, 'W', 3, 66⟩, ⟨7, 'R', 0, 0⟩, ⟨7, 'R', -1, 0⟩] (by decide)
  exact ⟨s, hrun, (htrans 0 515 'R' (by decide)).mpr (Or.inr (by decide))⟩

/-- The first request comes from a process numbered -1. -/
theorem not_translates_negative :
    ¬ ∀ (c : Config), (c.replacementPolicy = .LRU → 2 ≤ c.maxPFN) → ∀ (junk : VM)
      (rs : List Request) (s : VM), (run c (start c junk) rs).2 = .ok s →
        ∀ (pid : ℤ) (virtAddr : Int32) (w : Char), pid ≤ c.maxPID - 1 →
          Translates c s pid virtAddr w := by
  intro h
  have hneg := h (twoFrames .FIFO) (by decide) default [] _ rfl (-1) 0 'R' (by decide)
  have hnil := (hneg.refused (by decide)).2
  revert hnil
  decide

end OsProjects.Paging
