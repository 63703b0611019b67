import OsProjects.Paging.Inclusion
import OsProjects.Paging.Statistics
import OsProjects.Paging.Observer

/-!
# The order in which pages are evicted

LRU goes by the accesses of a run and FIFO by its loads: the page that is evicted
is the oldest one in that history.  For LRU the linked list is kept in this
order, for FIFO the frames are, seen from `fifo_tail`.
-/

namespace OsProjects.Paging
open DoublyLinked Recency Hand

variable {c : Config} {s s' : VM} {r : Request} {p q : IPTE} {w : Char} {f : ℤ} {b : Bool}
  {l trace : List IPTE}

/-! ## Faults without a free frame -/

/-- The victim of such a fault is the page in the frame that `find_replacement` returns. -/
lemma fault_evicts (hl : c.replacementPolicy = .LRU → 2 ≤ c.maxPFN) (hi : Inv c s)
    (hr : c.InRange r) (hv : (s.pte r.page).valid = false) (hfull : (getFreeframe c s).1 = -1) :
    ∃ f repl reply s', findReplacement c s.repl = .ok (f, repl) ∧ 0 ≤ f ∧ f < c.maxPFN ∧
      s.nextFreeFrame = c.maxPFN ∧ serve c s r = .ok (reply, s') ∧
        evicted c s s' = {s.invertedPageTable f} := by
  rcases serve_in_range hi hr with ⟨f, b, s₁, ha, hserve⟩ | ⟨h1, h2, -⟩
  · have hev := ha.evicted_eq hi.tables
    have hfinish : evicted c s (finish s₁ r f) = evicted c s s₁ := by
      simp only [evicted, finish_pte]
    cases ha with
    | hit hv' hn =>
      rw [hv] at hv'
      cases hv'
    | fill _ hn hfill => exact absurd (hi.tables.getFreeframe_full.mp hfull) hn.ne
    | evict _ hn hfind h0 hf =>
      rw [if_pos ⟨hv, hn⟩] at hev
      exact ⟨f, _, _, _, hfind, h0, hf, hn, hserve, hfinish.trans hev⟩
  · have := hl h1
    omega

/-- A resident page other than the one in the frame `f` is in another frame. -/
lemma Tables.frame_ne (ht : Tables c s) (hq : c.HasPage q) (hqv : (s.pte q).valid = true)
    (hne : q ≠ s.invertedPageTable f) :
    0 ≤ (s.pte q).PFN ∧ (s.pte q).PFN < s.nextFreeFrame ∧ (s.pte q).PFN ≠ f ∧
      s.invertedPageTable (s.pte q).PFN = q := by
  obtain ⟨h0, hlt, hipt⟩ := ht.valid q hq hqv
  refine ⟨h0, hlt, ?_, hipt⟩
  rintro rfl
  exact hne hipt.symm

/-! ## LRU -/

lemma LruOrder.served {rs : List Request} (hpol : c.replacementPolicy = .LRU) (hi : Inv c s)
    (hrs : ∀ r ∈ rs, c.InRange r) (h : LruOrder s l)
    (hage : l.Pairwise fun p q => age trace p < age trace q) (hs : Served c s rs s') :
    ∃ l', LruOrder s' l' ∧ l'.Pairwise fun p q =>
      age (trace ++ rs.map Request.page) p < age (trace ++ rs.map Request.page) q := by
  induction hs generalizing l trace with
  | nil =>
    rw [List.map_nil, List.append_nil]
    exact ⟨l, h, hage⟩
  | @cons _ _ _ r rs f _ ha _ ih =>
    have hr := hrs r List.mem_cons_self
    have hstep := (ha.lruOrder hpol hi.tables hr.hasPage h).finish r f
    rw [List.map_cons, List.append_cons]
    exact ih ((ha.inv hi hr.hasPage).finish r f) (fun q hq => hrs q (List.mem_cons_of_mem _ hq))
      hstep (lruStep_ordered _ hage)

/-- After every request the list holds the frames in use from the most to the least recently
accessed page, and a fault without a free frame evicts the page accessed longest ago. -/
theorem lru_evicts_oldest (c : Config) (hpol : c.replacementPolicy = .LRU) (h2 : 2 ≤ c.maxPFN)
    (junk : VM) (rs : List Request) (hrs : ∀ r ∈ rs, c.InRange r) :
    ∃ s, (run c (start c junk) rs).2 = .ok s ∧
      (∃ l, IsList s.repl.heap s.repl.head l ∧ (datas l).Nodup ∧
        (∀ f, f ∈ datas l ↔ 0 ≤ f ∧ f < s.nextFreeFrame) ∧
        (datas l).Pairwise fun f g => age (rs.map Request.page) (readIPTE s f) <
          age (rs.map Request.page) (readIPTE s g)) ∧
      ∀ r, c.InRange r → (readPTE s r.page.pid r.page.VPN).valid = false →
        (getFreeframe c s).1 = -1 → ∃ reply s' p, serve c s r = .ok (reply, s') ∧
          evicted c s s' = {p} ∧ ∀ q, c.HasPage q → (readPTE s q.pid q.VPN).valid = true → q ≠ p →
            age (rs.map Request.page) q < age (rs.map Request.page) p := by
  have hl : c.replacementPolicy = .LRU → 2 ≤ c.maxPFN := fun _ => h2
  have hstart := inv_start c junk
  obtain ⟨s, hs, hrun⟩ := run_served hl hrs hstart
  have hi := hs.inv hrs hstart
  have hnil : ([] : List IPTE).Pairwise fun p q => age [] p < age [] q := List.Pairwise.nil
  obtain ⟨l', ⟨fs, hfs, hnd, hmem, rfl⟩, hage⟩ :=
    (lruOrder_start c junk).served hpol hstart hrs hnil hs
  rw [List.nil_append, List.pairwise_map] at hage
  refine ⟨s, hrun, ?_, ?_⟩
  · obtain ⟨l, hlist, rfl⟩ := hfs
    exact ⟨l, hlist, hnd, hmem, hage⟩
  · intro r hr hv hfull
    obtain ⟨f, repl, reply, s', hfind, h0, hf, hn, hserve, hev⟩ := fault_evicts hl hi hr hv hfull
    refine ⟨reply, s', _, hserve, hev, fun q hq hqv hne => ?_⟩
    obtain ⟨hq0, hqn, hqf, hqi⟩ := hi.tables.frame_ne hq hqv hne
    have hqm := (hmem _).mpr ⟨hq0, hqn⟩
    rw [hn] at hmem
    obtain ⟨gs, rfl, -⟩ := findReplacement_lru hpol hfs hmem hfind
    have hqg : (s.pte q).PFN ∈ gs := by
      rw [List.mem_append, List.mem_singleton] at hqm
      exact hqm.resolve_right hqf
    have hlt := (List.pairwise_append.mp hage).2.2 _ hqg f (List.mem_singleton_self f)
    rw [hqi] at hlt
    exact hlt

/-- A request for the page that is not resident behind `threePages`. -/
def pageOne : Request := ⟨0, 'R', 256, 0⟩

/-- It makes room by the page accessed longest ago. -/
theorem lru_evicts_oldest_threePages :
    ∃ s, (run (twoFrames .LRU) (start (twoFrames .LRU) default) threePages).2 = .ok s ∧
      (∃ l, IsList s.repl.heap s.repl.head l ∧
        (datas l).Pairwise fun f g => age (threePages.map Request.page) (readIPTE s f) <
          age (threePages.map Request.page) (readIPTE s g)) ∧
      ∃ reply s' p, serve (twoFrames .LRU) s pageOne = .ok (reply, s') ∧
        evicted (twoFrames .LRU) s s' = {p} ∧ ∀ q, (twoFrames .LRU).HasPage q →
          (readPTE s q.pid q.VPN).valid = true → q ≠ p →
            age (threePages.map Request.page) q < age (threePages.map Request.page) p := by
  obtain ⟨s, hrun, ⟨l, hl, -, -, hage⟩, hevict⟩ :=
    lru_evicts_oldest (twoFrames .LRU) rfl (by decide) default threePages (by decide)
  have hstate := after_of_run hrun
  have hinvalid : (readPTE s 0 1).valid = false := by
    rw [← hstate]
    decide
  have hfull : (getFreeframe (twoFrames .LRU) s).1 = -1 := by
    rw [← hstate]
    decide
  exact ⟨s, hrun, ⟨l, hl, hage⟩, hevict pageOne (by decide) hinvalid hfull⟩

/-! ## FIFO -/

/-- The page of the request is noted when `swap_in` has been called. -/
def noteLoad (loads : List IPTE) (s : VM) (r : Request) (s' : VM) : List IPTE :=
  if s.stats.swapRead < s'.stats.swapRead then loads ++ [r.page] else loads

/-- From `fifo_tail` on, the frames hold the pages in the order of their loads. -/
def FifoOrder (c : Config) (s : VM) (trace : List IPTE) : Prop :=
  ∀ f g, 0 ≤ f → f < s.nextFreeFrame → 0 ≤ g → g < s.nextFreeFrame →
    ahead c.maxPFN s.repl.fifoTail f < ahead c.maxPFN s.repl.fifoTail g →
      age trace (s.invertedPageTable g) < age trace (s.invertedPageTable f)

lemma fifoOrder_start (c : Config) (junk : VM) : FifoOrder c (start c junk) [] := by
  intro f g h0 hf
  exact absurd (show f < 0 from hf) (by omega)

lemma FifoOrder.fill {repl : Replacer} (hpol : c.replacementPolicy = .FIFO) (hi : Inv c s)
    (h : FifoOrder c s trace) (hv : (s.pte p).valid = false) (hn : s.nextFreeFrame < c.maxPFN)
    (hr : noteFill c s.repl s.nextFreeFrame = .ok repl) :
    FifoOrder c (loadPage (countMiss s repl (s.nextFreeFrame + 1)) p.pid p.VPN w s.nextFreeFrame)
      (trace ++ [p]) := by
  simp only [noteFill, hpol] at hr
  obtain rfl := Except.ok.inj hr
  have hpolicy := hi.policy
  simp only [PolicyInv, hpol] at hpolicy
  have htail := hpolicy.2.2 hn
  intro e g he0 hen hg0 hgn hlt
  rw [loadPage_nextFreeFrame, countMiss_nextFreeFrame] at hen hgn
  rw [loadPage_repl, countMiss_repl] at hlt
  rw [loadPage_invertedPageTable, countMiss_invertedPageTable]
  -- while frames are free the tail is at frame 0
  have hne : e ≠ s.nextFreeFrame := by
    rw [htail] at hlt
    simp only [ahead, if_pos he0, if_pos hg0] at hlt
    omega
  have hep := hi.tables.page_ne hv he0 (show e < s.nextFreeFrame by omega)
  rw [Function.update_of_ne hne]
  by_cases hg : g = s.nextFreeFrame
  · rw [hg, Function.update_self, age_concat_self, age_concat_of_ne hep]
    exact Nat.succ_pos _
  · have hgn' : g < s.nextFreeFrame := by omega
    rw [Function.update_of_ne hg]
    exact age_lt_concat (hi.tables.page_ne hv hg0 hgn') hep
      (h e g he0 (by omega) hg0 hgn' hlt)

lemma FifoOrder.evict {repl : Replacer} (hpol : c.replacementPolicy = .FIFO) (hi : Inv c s)
    (h : FifoOrder c s trace) (hv : (s.pte p).valid = false) (hn : s.nextFreeFrame = c.maxPFN)
    (hr : findReplacement c s.repl = .ok (f, repl)) :
    FifoOrder c (loadPage (evictPage (countMiss s repl s.nextFreeFrame) f) p.pid p.VPN w f)
      (trace ++ [p]) := by
  simp only [findReplacement, hpol, fifo, Except.ok.injEq, Prod.mk.injEq] at hr
  obtain ⟨rfl, rfl⟩ := hr
  have hpolicy := hi.policy
  simp only [PolicyInv, hpol] at hpolicy
  obtain ⟨ht0, htk, -⟩ := hpolicy
  intro e g he0 hen hg0 hgn hlt
  rw [loadPage_nextFreeFrame, evictPage_nextFreeFrame, countMiss_nextFreeFrame] at hen hgn
  rw [loadPage_repl, evictPage_repl, countMiss_repl] at hlt
  rw [loadPage_invertedPageTable, evictPage_invertedPageTable, countMiss_invertedPageTable]
  change ahead c.maxPFN ((s.repl.fifoTail + 1) % c.maxPFN) e <
    ahead c.maxPFN ((s.repl.fifoTail + 1) % c.maxPFN) g at hlt
  -- the frame just left is the farthest one
  have hne : e ≠ s.repl.fifoTail := by
    rintro rfl
    have hmod0 := succ_mod_nonneg (k := c.maxPFN) (h := s.repl.fifoTail) (by omega)
    have hbound := ahead_lt hmod0 (show g < c.maxPFN by omega)
    rw [ahead_succ_mod_self ht0 htk] at hlt
    omega
  have hep := hi.tables.page_ne hv he0 hen
  rw [Function.update_of_ne hne]
  by_cases hg : g = s.repl.fifoTail
  · rw [hg, Function.update_self, age_concat_self, age_concat_of_ne hep]
    exact Nat.succ_pos _
  · rw [ahead_succ_mod ht0 htk he0 (by omega) hne, ahead_succ_mod ht0 htk hg0 (by omega) hg] at hlt
    rw [Function.update_of_ne hg]
    exact age_lt_concat (hi.tables.page_ne hv hg0 hgn) hep (h e g he0 hen hg0 hgn (by omega))

/-- Every access keeps the order, and a load puts its page at the end. -/
lemma Access.fifoOrder (hpol : c.replacementPolicy = .FIFO) (hi : Inv c s)
    (h : FifoOrder c s trace) (ha : Access c s r.page r.reqType f b s') :
    FifoOrder c s' (noteLoad trace s r s') := by
  unfold noteLoad
  cases ha with
  | hit hv hr =>
    simp only [noteHit, hpol] at hr
    obtain rfl := Except.ok.inj hr
    rw [afterHit_stats, if_neg (lt_irrefl _)]
    intro e g
    rw [afterHit_nextFreeFrame, afterHit_repl, afterHit_invertedPageTable]
    exact h e g
  | fill hv hn hr =>
    rw [loadPage_stats, countMiss_stats, if_pos (Nat.lt_succ_self _)]
    exact h.fill hpol hi hv hn hr
  | evict hv hn hr h0 hf =>
    rw [loadPage_stats, evictPage_stats, countMiss_stats, if_pos (Nat.lt_succ_self _)]
    exact h.evict hpol hi hv hn hr

lemma FifoOrder.finish (h : FifoOrder c s trace) (r : Request) (f : ℤ) :
    FifoOrder c (finish s r f) trace := by
  simpa only [FifoOrder, finish_repl, finish_nextFreeFrame, finish_invertedPageTable] using h

/-- A fault without a free frame evicts, of all resident pages, the one loaded longest ago. -/
theorem fifo_evicts_oldest (c : Config) (hpol : c.replacementPolicy = .FIFO) (junk : VM)
    (rs : List Request) (hrs : ∀ r ∈ rs, c.InRange r) :
    ∃ s, (run c (start c junk) rs).2 = .ok s ∧
      ∀ r, c.InRange r → (readPTE s r.page.pid r.page.VPN).valid = false →
        (getFreeframe c s).1 = -1 → ∃ reply s' p, serve c s r = .ok (reply, s') ∧
          evicted c s s' = {p} ∧ ∀ q, c.HasPage q → (readPTE s q.pid q.VPN).valid = true → q ≠ p →
            age (observe noteLoad c (start c junk) [] rs) q <
              age (observe noteLoad c (start c junk) [] rs) p := by
  have hl : c.replacementPolicy = .LRU → 2 ≤ c.maxPFN := by
    rw [hpol]
    exact nofun
  have hobs : ∃ s, (run c (start c junk) rs).2 = .ok s ∧ Inv c s ∧
      FifoOrder c s (observe noteLoad c (start c junk) [] rs) :=
    run_observed (P := FifoOrder c) hl
      (fun hi h _ ha => by
        rw [noteLoad, finish_stats]
        exact (ha.fifoOrder hpol hi h).finish _ _)
      hrs (inv_start c junk) (fifoOrder_start c junk)
  obtain ⟨s, hrun, hi, hord⟩ := hobs
  refine ⟨s, hrun, fun r hr hv hfull => ?_⟩
  obtain ⟨f, repl, reply, s', hfind, h0, hf, hn, hserve, hev⟩ := fault_evicts hl hi hr hv hfull
  refine ⟨reply, s', _, hserve, hev, fun q hq hqv hne => ?_⟩
  obtain ⟨hq0, hqn, hqf, hqi⟩ := hi.tables.frame_ne hq hqv hne
  simp only [findReplacement, hpol, fifo, Except.ok.injEq, Prod.mk.injEq] at hfind
  obtain ⟨rfl, -⟩ := hfind
  have hlt := hord s.repl.fifoTail (s.pte q).PFN h0 (by omega) hq0 hqn (by
    have h1 := ahead_nonneg hf hq0
    have h2 := mt (ahead_eq_zero_iff hf hq0).mp hqf
    rw [ahead_self]
    omega)
  rw [hqi] at hlt
  exact hlt

theorem fifo_evicts_oldest_threePages :
    ∃ s, (run (twoFrames .FIFO) (start (twoFrames .FIFO) default) threePages).2 = .ok s ∧
      ∃ reply s' p, serve (twoFrames .FIFO) s pageOne = .ok (reply, s') ∧
        evicted (twoFrames .FIFO) s s' = {p} ∧ ∀ q, (twoFrames .FIFO).HasPage q →
          (readPTE s q.pid q.VPN).valid = true → q ≠ p →
            age (observe noteLoad (twoFrames .FIFO) (start (twoFrames .FIFO) default) []
                threePages) q <
              age (observe noteLoad (twoFrames .FIFO) (start (twoFrames .FIFO) default) []
                threePages) p := by
  obtain ⟨s, hrun, hevict⟩ :=
    fifo_evicts_oldest (twoFrames .FIFO) rfl default threePages (by decide)
  have hstate := after_of_run hrun
  have hinvalid : (readPTE s 0 1).valid = false := by
    rw [← hstate]
    decide
  have hfull : (getFreeframe (twoFrames .FIFO) s).1 = -1 := by
    rw [← hstate]
    decide
  exact ⟨s, hrun, hevict pageOne (by decide) hinvalid hfull⟩

end OsProjects.Paging
