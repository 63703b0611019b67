import OsProjects.Paging.Inclusion
import OsProjects.Paging.Statistics

/-!
# Runs up to renaming of the pages

Two machines with the same policy and as many frames, and requests that differ by
a renaming of their pages.  The two tables and the policies' own data stay the
same up to the renaming, so the frames and the hits are the same: they do not
depend on the process ids and page numbers, on the kind of the requests, or on
any byte in memory.
-/

namespace OsProjects.Paging

variable {c d : Config} {σ : IPTE → IPTE} {s t s' : VM} {p : IPTE} {w w' : Char} {f : ℤ} {b : Bool}

/-- Machines of the same kind, and a renaming of the pages of one to pages of the other. -/
structure Renaming (c d : Config) (σ : IPTE → IPTE) : Prop where
  policy : d.replacementPolicy = c.replacementPolicy
  maxPFN : d.maxPFN = c.maxPFN
  hasPage : ∀ p, c.HasPage p → d.HasPage (σ p)
  inj : ∀ p q, c.HasPage p → c.HasPage q → σ p = σ q → p = q

/-- `t` is `s` with its pages renamed. -/
structure Renamed (c d : Config) (σ : IPTE → IPTE) (s t : VM) : Prop where
  inv : Inv c s
  inv' : Inv d t
  next : t.nextFreeFrame = s.nextFreeFrame
  repl : t.repl = s.repl
  frame : ∀ g, 0 ≤ g → g < s.nextFreeFrame → t.invertedPageTable g = σ (s.invertedPageTable g)
  hitCount : t.stats.hitCount = s.stats.hitCount
  missCount : t.stats.missCount = s.stats.missCount
  swapRead : t.stats.swapRead = s.stats.swapRead

lemma renamed_start (junk junk' : VM) :
    Renamed c d σ (start c junk) (start d junk') :=
  ⟨inv_start c junk, inv_start d junk', rfl, rfl,
    fun g h0 hg => absurd (show g < 0 from hg) (not_lt_of_ge h0), rfl, rfl, rfl⟩

lemma Renamed.pte (hσ : Renaming c d σ) (h : Renamed c d σ s t) (hp : c.HasPage p) :
    (t.pte (σ p)).valid = (s.pte p).valid ∧
      ((s.pte p).valid = true → (t.pte (σ p)).PFN = (s.pte p).PFN) := by
  have hs := h.inv.tables
  have ht := h.inv'.tables
  have hto : (s.pte p).valid = true →
      (t.pte (σ p)).valid = true ∧ (t.pte (σ p)).PFN = (s.pte p).PFN := by
    intro hv
    obtain ⟨h0, hlt, hip⟩ := hs.valid p hp hv
    obtain ⟨-, hv', hf⟩ := ht.frame _ h0 (h.next ▸ hlt)
    rw [h.frame _ h0 hlt, hip] at hv' hf
    exact ⟨hv', hf⟩
  have hfrom : (t.pte (σ p)).valid = true → (s.pte p).valid = true := by
    intro hv
    obtain ⟨h0, hlt, hip⟩ := ht.valid (σ p) (hσ.hasPage p hp) hv
    rw [h.next] at hlt
    rw [h.frame _ h0 hlt] at hip
    obtain ⟨hq, hqv, -⟩ := hs.frame _ h0 hlt
    rw [← hσ.inj _ p hq hp hip]
    exact hqv
  exact ⟨Bool.eq_iff_iff.mpr ⟨hfrom, fun hv => (hto hv).1⟩, fun hv => (hto hv).2⟩

lemma Renaming.noteHit (hσ : Renaming c d σ) (r : Replacer) (g : ℤ) :
    noteHit d r g = noteHit c r g := by
  rw [Paging.noteHit, Paging.noteHit, hσ.policy]

lemma Renaming.noteFill (hσ : Renaming c d σ) (r : Replacer) (g : ℤ) :
    noteFill d r g = noteFill c r g := by
  rw [Paging.noteFill, Paging.noteFill, hσ.policy]

lemma Renaming.clockLoop (hσ : Renaming c d σ) (fuel : ℕ) (ref : ℤ → ℤ) (tail : ℤ) :
    clockLoop d fuel ref tail = clockLoop c fuel ref tail := by
  induction fuel generalizing ref tail with
  | zero => rfl
  | succ fuel ih => rw [Paging.clockLoop, Paging.clockLoop, hσ.maxPFN, ih, ih]

lemma Renaming.findReplacement (hσ : Renaming c d σ) (r : Replacer) :
    findReplacement d r = findReplacement c r := by
  have hclock : clock d r = clock c r := by
    unfold clock
    simp only [hσ.clockLoop, hσ.maxPFN]
  rw [Paging.findReplacement, Paging.findReplacement, hσ.policy, hclock, fifo, fifo, hσ.maxPFN]

/-- The counters stay the same, whatever the kinds of the requests are. -/
lemma Renamed.stats {t' : VM} {f' : ℤ} {b' : Bool} (hσ : Renaming c d σ) (h : Renamed c d σ s t)
    (hp : c.HasPage p) (ha : Access c s p w f b s') (ha' : Access d t (σ p) w' f' b' t') :
    t'.stats.hitCount = s'.stats.hitCount ∧ t'.stats.missCount = s'.stats.missCount ∧
      t'.stats.swapRead = s'.stats.swapRead := by
  have hmiss : t'.stats.missCount = s'.stats.missCount := by
    rw [ha.missCount.2, ha'.missCount.2, h.missCount, (h.pte hσ hp).1]
  have hhits := h.hitCount
  have hreads := h.swapRead
  have hmisses := h.missCount
  have hs := ha.stats_eq h.inv.tables
  have ht := ha'.stats_eq h.inv'.tables
  exact ⟨by omega, hmiss, by omega⟩

/-- A page that enters a frame of both machines. -/
lemma frame_update {n m g : ℤ} {ipt jpt : ℤ → IPTE}
    (h : ∀ g, 0 ≤ g → g < n → jpt g = σ (ipt g)) (hm : ∀ g, g < m → g < n ∨ g = f) (p : IPTE)
    (h0 : 0 ≤ g) (hg : g < m) :
    Function.update jpt f (σ p) g = σ (Function.update ipt f p g) := by
  by_cases hgf : g = f
  · rw [hgf, Function.update_self, Function.update_self]
  · rw [Function.update_of_ne hgf, Function.update_of_ne hgf]
    exact h g h0 ((hm g hg).resolve_right hgf)

/-- Every access is an access of the renamed page, in the same frame. -/
theorem Renamed.access (hσ : Renaming c d σ) (h : Renamed c d σ s t) (hp : c.HasPage p)
    (ha : Access c s p w f b s') (w' : Char) :
    ∃ t', Access d t (σ p) w' f b t' ∧ Renamed c d σ s' t' := by
  obtain ⟨hvalid, hPFN⟩ := h.pte hσ hp
  have hp' := hσ.hasPage p hp
  -- the tables and the policy after the access are all that is left to compare
  suffices hsame : ∃ t', Access d t (σ p) w' f b t' ∧ t'.nextFreeFrame = s'.nextFreeFrame ∧
      t'.repl = s'.repl ∧ ∀ g, 0 ≤ g → g < s'.nextFreeFrame →
        t'.invertedPageTable g = σ (s'.invertedPageTable g) by
    obtain ⟨t', ha', hnext, hrepl, hframe⟩ := hsame
    obtain ⟨hhits, hmisses, hreads⟩ := h.stats hσ hp ha ha'
    exact ⟨t', ha', ha.inv h.inv hp, ha'.inv h.inv' hp', hnext, hrepl, hframe, hhits, hmisses,
      hreads⟩
  cases ha with
  | @hit repl hv hr =>
    refine ⟨afterHit t (σ p) w' repl, ?_, ?_, ?_, ?_⟩
    · rw [← hPFN hv]
      apply Access.hit (hvalid.trans hv)
      rw [hσ.noteHit, h.repl, hPFN hv]
      exact hr
    · rw [afterHit_nextFreeFrame, afterHit_nextFreeFrame, h.next]
    · rw [afterHit_repl, afterHit_repl]
    · rw [afterHit_nextFreeFrame, afterHit_invertedPageTable, afterHit_invertedPageTable]
      exact h.frame
  | @fill repl hv hn hr =>
    refine ⟨loadPage (countMiss t repl (t.nextFreeFrame + 1)) (σ p).pid (σ p).VPN w'
      t.nextFreeFrame, ?_, ?_, ?_, ?_⟩
    · rw [← h.next]
      apply Access.fill (hvalid.trans hv)
      · rw [h.next, hσ.maxPFN]
        exact hn
      · rw [hσ.noteFill, h.repl, h.next]
        exact hr
    · rw [loadPage_nextFreeFrame, loadPage_nextFreeFrame, countMiss_nextFreeFrame,
        countMiss_nextFreeFrame, h.next]
    · rw [loadPage_repl, loadPage_repl, countMiss_repl, countMiss_repl]
    · rw [loadPage_nextFreeFrame, loadPage_invertedPageTable, loadPage_invertedPageTable,
        countMiss_nextFreeFrame, countMiss_invertedPageTable, countMiss_invertedPageTable, h.next]
      exact fun g h0 hg => frame_update h.frame (by omega) p h0 hg
  | @evict f repl hv hn hr h0 hf =>
    refine ⟨loadPage (evictPage (countMiss t repl t.nextFreeFrame) f) (σ p).pid (σ p).VPN w' f,
      ?_, ?_, ?_, ?_⟩
    · apply Access.evict (hvalid.trans hv)
      · rw [h.next, hσ.maxPFN, hn]
      · rw [hσ.findReplacement, h.repl]
        exact hr
      · exact h0
      · rw [hσ.maxPFN]
        exact hf
    · rw [loadPage_nextFreeFrame, loadPage_nextFreeFrame, evictPage_nextFreeFrame,
        evictPage_nextFreeFrame, countMiss_nextFreeFrame, countMiss_nextFreeFrame, h.next]
    · rw [loadPage_repl, loadPage_repl, evictPage_repl, evictPage_repl, countMiss_repl,
        countMiss_repl]
    · rw [loadPage_nextFreeFrame, loadPage_invertedPageTable, loadPage_invertedPageTable,
        evictPage_nextFreeFrame, evictPage_invertedPageTable, evictPage_invertedPageTable,
        countMiss_nextFreeFrame, countMiss_invertedPageTable, countMiss_invertedPageTable]
      exact fun g h0 hg => frame_update h.frame (fun g hg => Or.inl hg) p h0 hg

lemma Renamed.finish (h : Renamed c d σ s t) (r q : Request) (f g : ℤ) :
    Renamed c d σ (finish s r f) (finish t q g) := by
  refine ⟨h.inv.finish r f, h.inv'.finish q g, ?_, ?_, ?_, ?_, ?_, ?_⟩
  · rw [finish_nextFreeFrame, finish_nextFreeFrame, h.next]
  · rw [finish_repl, finish_repl, h.repl]
  · rw [finish_nextFreeFrame, finish_invertedPageTable, finish_invertedPageTable]
    exact h.frame
  all_goals rw [finish_stats, finish_stats]
  · exact h.hitCount
  · exact h.missCount
  · exact h.swapRead

/-- What a reply tells about the paging: the frame, and whether it was a hit. -/
def Reply.traffic : Reply → Option (ℤ × Option Bool)
  | .read addr _ hit => some (addr >>> (8 : ℕ), hit)
  | .written addr _ hit => some (addr >>> (8 : ℕ), hit)
  | _ => none

lemma replyOf_traffic (s : VM) (r : Request) (f : ℤ) (b : Bool) :
    (replyOf s r f b).traffic = some (f, some b) := by
  obtain ⟨h0, hlt⟩ := r.offset_bounds
  unfold replyOf
  split_ifs <;> rw [Reply.traffic, physicalAddr_shiftRight h0 hlt]

/-- Renamed requests run into the same frames, with the same hits, on a machine of the same kind. -/
theorem run_renamed (c d : Config) (σ : IPTE → IPTE) (hσ : Renaming c d σ)
    (hl : c.replacementPolicy = .LRU → 2 ≤ c.maxPFN) (junk junk' : VM) (rs qs : List Request)
    (hrs : ∀ r ∈ rs, c.InRange r) (hqs : ∀ q ∈ qs, d.InRange q)
    (hpages : qs.map Request.page = rs.map fun r => σ r.page) :
    (run d (start d junk') qs).1.map Reply.traffic = (run c (start c junk) rs).1.map Reply.traffic ∧
    ∃ s t, (run c (start c junk) rs).2 = .ok s ∧ (run d (start d junk') qs).2 = .ok t ∧
      t.stats.hitCount = s.stats.hitCount ∧ t.stats.missCount = s.stats.missCount ∧
        t.stats.swapRead = s.stats.swapRead := by
  have hstart := renamed_start (σ := σ) (c := c) (d := d) junk junk'
  generalize start c junk = s at hstart ⊢
  generalize start d junk' = t at hstart ⊢
  induction rs generalizing s t qs with
  | nil =>
    obtain rfl := List.map_eq_nil_iff.mp hpages
    exact ⟨rfl, s, t, rfl, rfl, hstart.hitCount, hstart.missCount, hstart.swapRead⟩
  | cons r rs ih =>
    cases qs with
    | nil => cases hpages
    | cons q qs =>
      rw [List.map_cons, List.map_cons, List.cons.injEq] at hpages
      obtain ⟨hpage, hpages⟩ := hpages
      have hr := hrs r List.mem_cons_self
      have hq := hqs q List.mem_cons_self
      rcases serve_in_range hstart.inv hr with ⟨f, b, s', ha, hserve⟩ | ⟨h1, h2, -⟩
      · obtain ⟨t', ha', hren⟩ := hstart.access hσ hr.hasPage ha q.reqType
        rw [← hpage] at ha'
        have hserve' := serve_of_access hstart.inv' hq ha'
        obtain ⟨htraffic, s₂, t₂, hs₂, ht₂, hstats⟩ := ih qs
          (fun x hx => hrs x (List.mem_cons_of_mem _ hx))
          (fun x hx => hqs x (List.mem_cons_of_mem _ hx)) hpages _ _ (hren.finish r q f f)
        refine ⟨?_, s₂, t₂, ?_, ?_, hstats⟩
        · rw [run, run, hserve, hserve']
          simp only [replyOf_exits, Bool.false_eq_true, if_false, List.map_cons, replyOf_traffic,
            htraffic]
        · rw [run, hserve]
          simp only [replyOf_exits]
          exact hs₂
        · rw [run, hserve']
          simp only [replyOf_exits]
          exact ht₂
      · have := hl h1
        omega

/-- The page numbers the other way round. -/
lemma renaming_reverse :
    Renaming (twoFrames .LRU) (twoFrames .LRU) fun p => ⟨p.pid, 2 - p.VPN⟩ := by
  have hmax : (twoFrames .LRU).maxVPN = 3 := rfl
  refine ⟨rfl, rfl, fun p hp => ?_, fun p q _ _ h => ?_⟩
  · obtain ⟨h1, h2, h3, h4⟩ := hp
    refine ⟨h1, h2, ?_, ?_⟩
    · change 0 ≤ 2 - p.VPN
      omega
    · change 2 - p.VPN < (twoFrames .LRU).maxVPN
      omega
  · obtain ⟨hpid, hVPN⟩ := IPTE.eq_iff.mp h
    exact IPTE.eq_iff.mpr ⟨hpid, by simpa using hVPN⟩

theorem run_renamed_threePages :
    (run (twoFrames .LRU) (start (twoFrames .LRU) default)
      [⟨0, 'R', 512, 0⟩, ⟨0, 'W', 256, 9⟩, ⟨0, 'R', 0, 0⟩, ⟨0, 'W', 515, 7⟩]).1.map Reply.traffic =
    (run (twoFrames .LRU) (start (twoFrames .LRU) default) threePages).1.map Reply.traffic :=
  (run_renamed (twoFrames .LRU) (twoFrames .LRU) _ renaming_reverse (fun _ => by decide) default
    default threePages [⟨0, 'R', 512, 0⟩, ⟨0, 'W', 256, 9⟩, ⟨0, 'R', 0, 0⟩, ⟨0, 'W', 515, 7⟩]
    (by decide) (by decide) (by decide)).1

end OsProjects.Paging
