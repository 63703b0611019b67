import OsProjects.Paging.Observer

/-!
# The statistics are exact

`History` is kept by an observer who only sees which pages are resident before and
after a request.  Each access does the same to the history as to the counters and
the dirty bits.
-/

namespace OsProjects.Paging

instance (c : Config) : DecidablePred c.HasPage :=
  fun _ => inferInstanceAs (Decidable (_ ∧ _ ∧ _ ∧ _))

/-- Every page there is. -/
def Config.pages (c : Config) : Finset IPTE :=
  (Finset.range c.maxPID.toNat ×ˢ Finset.range c.maxVPN.toNat).image fun x => ⟨x.1, x.2⟩

lemma Config.mem_pages {c : Config} {p : IPTE} : p ∈ c.pages ↔ c.HasPage p := by
  simp only [Config.pages, Finset.mem_image, Finset.mem_product, Finset.mem_range,
    Config.HasPage]
  constructor
  · rintro ⟨x, ⟨h1, h2⟩, rfl⟩
    change 0 ≤ (x.1 : ℤ) ∧ (x.1 : ℤ) < c.maxPID ∧ 0 ≤ (x.2 : ℤ) ∧ (x.2 : ℤ) < c.maxVPN
    omega
  · rintro ⟨h1, h2, h3, h4⟩
    refine ⟨(p.pid.toNat, p.VPN.toNat), by omega, IPTE.eq_iff.mpr ?_⟩
    exact ⟨Int.toNat_of_nonneg h1, Int.toNat_of_nonneg h3⟩

/-- The pages that were resident in `s` and no longer are in `s'`. -/
def evicted (c : Config) (s s' : VM) : Finset IPTE :=
  c.pages.filter fun p => (s.pte p).valid = true ∧ (s'.pte p).valid = false

/-- The resident pages whose entry is dirty. -/
def dirtyPages (c : Config) (s : VM) : Finset IPTE :=
  c.pages.filter fun p => (s.pte p).valid = true ∧ (s.pte p).dirty = true

structure History where
  /-- the page received a `W` since it was last loaded -/
  written : IPTE → Bool
  evictions : ℕ
  writtenEvictions : ℕ

def History.start : History := ⟨fun _ => false, 0, 0⟩

/-- The request `r` took the machine from `s` to `s'`. -/
def History.note (c : Config) (g : History) (s s' : VM) (r : Request) : History where
  written p :=
    if p = r.page ∧ r.reqType = 'W' then true
    else if (s.pte p).valid = false ∧ (s'.pte p).valid = true then false
    else g.written p
  evictions := g.evictions + (evicted c s s').card
  writtenEvictions :=
    g.writtenEvictions + ((evicted c s s').filter fun p => g.written p = true).card

/-- The history of a run of the loop of `main`. -/
def history (c : Config) (s : VM) (g : History) : List Request → History
  | [] => g
  | r :: rs =>
    match serve c s r with
    | .error _ => g
    | .ok (reply, s') =>
      if reply.exits then g.note c s s' r else history c s' (g.note c s s' r) rs

/-! ## What an access does to the counters -/

@[simp] lemma afterHit_stats (s : VM) (p : IPTE) (w : Char) (repl : Replacer) :
    (afterHit s p w repl).stats = { s.stats with hitCount := s.stats.hitCount + 1 } := by
  unfold afterHit
  split_ifs <;> rfl

@[simp] lemma countMiss_stats (s : VM) (repl : Replacer) (n : ℤ) :
    (countMiss s repl n).stats = { s.stats with missCount := s.stats.missCount + 1 } := rfl

@[simp] lemma loadPage_stats (s : VM) (q : IPTE) (w : Char) (f : ℤ) :
    (loadPage s q.pid q.VPN w f).stats = { s.stats with swapRead := s.stats.swapRead + 1 } := rfl

lemma evictPage_stats (s : VM) (f : ℤ) :
    (evictPage s f).stats = { s.stats with
      swapWrite :=
        s.stats.swapWrite + if (s.pte (s.invertedPageTable f)).dirty then 1 else 0 } := by
  cases hd : (s.pte (s.invertedPageTable f)).dirty with
  | true =>
    rw [evictPage_of_dirty rfl hd]
    rfl
  | false =>
    rw [evictPage_of_clean rfl hd]
    rfl

/-! ## What an access does to the resident pages -/

lemma mem_evicted {c : Config} {s s' : VM} {q : IPTE} :
    q ∈ evicted c s s' ↔ c.HasPage q ∧ (s.pte q).valid = true ∧ (s'.pte q).valid = false := by
  rw [evicted, Finset.mem_filter, Config.mem_pages]

lemma mem_dirtyPages {c : Config} {s : VM} {q : IPTE} :
    q ∈ dirtyPages c s ↔ c.HasPage q ∧ (s.pte q).valid = true ∧ (s.pte q).dirty = true := by
  rw [dirtyPages, Finset.mem_filter, Config.mem_pages]

/-- The pages an access takes away. -/
lemma Access.evicted_eq {c : Config} {s s' : VM} {p : IPTE} {w : Char} {f : ℤ} {b : Bool}
    (ht : Tables c s) (ha : Access c s p w f b s') :
    evicted c s s' = if (s.pte p).valid = false ∧ s.nextFreeFrame = c.maxPFN then
      {s.invertedPageTable f} else ∅ := by
  ext q
  rw [mem_evicted]
  cases ha with
  | hit hv hr =>
    rw [if_neg (fun h => by rw [hv] at h; exact Bool.false_ne_true h.1.symm), afterHit_pte]
    constructor
    · rintro ⟨-, h1, h2⟩
      rw [h1] at h2
      exact absurd h2.symm Bool.false_ne_true
    · exact fun h => absurd h (Finset.notMem_empty q)
  | fill hv hn hr =>
    rw [if_neg (fun h => by omega), loadPage_pte, countMiss_pte]
    constructor
    · rintro ⟨-, h1, h2⟩
      split_ifs at h2
      rw [h1] at h2
      exact absurd h2.symm Bool.false_ne_true
    · exact fun h => absurd h (Finset.notMem_empty q)
  | evict hv hn hr h0 hf =>
    obtain ⟨hpage, hvalid, -⟩ := ht.frame f h0 (by omega)
    rw [if_pos ⟨hv, hn⟩, Finset.mem_singleton, loadPage_pte, evictPage_pte,
      countMiss_invertedPageTable, countMiss_pte]
    constructor
    · rintro ⟨-, h1, h2⟩
      split_ifs at h2 with hqp hq
      · exact hq
      · rw [h1] at h2
        exact absurd h2.symm Bool.false_ne_true
    · rintro rfl
      rw [if_neg (ht.page_ne hv h0 (by omega)), if_pos rfl]
      exact ⟨hpage, hvalid, rfl⟩

/-- A page still resident keeps its dirty bit, unless the request is for it. -/
lemma Access.dirty_eq {c : Config} {s s' : VM} {p q : IPTE} {w : Char} {f : ℤ} {b : Bool}
    (ha : Access c s p w f b s') (hv' : (s'.pte q).valid = true) :
    (s'.pte q).dirty = if q = p then decide (w = 'W') || ((s.pte p).valid && (s.pte p).dirty)
      else (s.pte q).dirty := by
  by_cases hqp : q = p
  · subst hqp
    rw [if_pos rfl]
    cases ha with
    | hit hv hr =>
      rw [afterHit_pte, hv, Bool.true_and, decide_eq_true rfl, Bool.true_and]
      exact Bool.or_comm _ _
    | fill hv hn hr => rw [loadPage_pte, if_pos rfl, hv, Bool.false_and, Bool.or_false]
    | evict hv hn hr h0 hf => rw [loadPage_pte, if_pos rfl, hv, Bool.false_and, Bool.or_false]
  · rw [if_neg hqp]
    cases ha with
    | hit hv hr =>
      rw [afterHit_pte, decide_eq_false hqp, Bool.false_and, Bool.or_false]
    | fill hv hn hr => rw [loadPage_pte, if_neg hqp, countMiss_pte]
    | evict hv hn hr h0 hf =>
      rw [loadPage_pte, if_neg hqp, evictPage_pte] at hv' ⊢
      split_ifs at hv' ⊢ with hq
      rfl

/-- A page that becomes resident is the accessed one. -/
lemma Access.valid_of_ne {c : Config} {s s' : VM} {p q : IPTE} {w : Char} {f : ℤ} {b : Bool}
    (ha : Access c s p w f b s') (hqp : q ≠ p) (hv' : (s'.pte q).valid = true) :
    (s.pte q).valid = true := by
  cases ha with
  | hit hv hr =>
    rw [afterHit_pte] at hv'
    exact hv'
  | fill hv hn hr =>
    rw [loadPage_pte, if_neg hqp] at hv'
    exact hv'
  | evict hv hn hr h0 hf =>
    rw [loadPage_pte, if_neg hqp, evictPage_pte] at hv'
    split_ifs at hv'
    exact hv'

/-- Only a `W` makes a page dirty, and an evicted page is dirty no more. -/
lemma Access.dirtyPages_subset {c : Config} {s s' : VM} {p : IPTE} {w : Char} {f : ℤ} {b : Bool}
    (ha : Access c s p w f b s') :
    dirtyPages c s' ⊆ (dirtyPages c s \ evicted c s s') ∪ if w = 'W' then {p} else ∅ := by
  intro q hq
  obtain ⟨hpage, hv', hd'⟩ := mem_dirtyPages.mp hq
  rw [ha.dirty_eq hv'] at hd'
  apply Finset.mem_union.mpr
  by_cases hw : q = p ∧ w = 'W'
  · refine Or.inr ?_
    rw [if_pos hw.2]
    exact Finset.mem_singleton.mpr hw.1
  · refine Or.inl (Finset.mem_sdiff.mpr ⟨mem_dirtyPages.mpr ⟨hpage, ?_⟩, ?_⟩)
    · by_cases hqp : q = p
      · subst hqp
        rw [if_pos rfl, decide_eq_false fun h => hw ⟨rfl, h⟩, Bool.false_or,
          Bool.and_eq_true] at hd'
        exact hd'
      · rw [if_neg hqp] at hd'
        exact ⟨ha.valid_of_ne hqp hv', hd'⟩
    · intro he
      rw [(mem_evicted.mp he).2.2] at hv'
      exact Bool.false_ne_true hv'

lemma Access.card_dirtyPages {c : Config} {s s' : VM} {p : IPTE} {w : Char} {f : ℤ} {b : Bool}
    (ha : Access c s p w f b s') :
    (dirtyPages c s').card + ((evicted c s s').filter fun q => (s.pte q).dirty = true).card ≤
      (dirtyPages c s).card + if w = 'W' then 1 else 0 := by
  have hinter : (evicted c s s').filter (fun q => (s.pte q).dirty = true) =
      evicted c s s' ∩ dirtyPages c s := by
    ext q
    rw [Finset.mem_filter, Finset.mem_inter, mem_evicted, mem_dirtyPages]
    tauto
  have hsplit := Finset.card_sdiff_add_card_inter (dirtyPages c s) (evicted c s s')
  have hnew : (if w = 'W' then ({p} : Finset IPTE) else ∅).card = if w = 'W' then 1 else 0 := by
    split_ifs <;> rfl
  calc (dirtyPages c s').card + ((evicted c s s').filter fun q => (s.pte q).dirty = true).card
      ≤ ((dirtyPages c s \ evicted c s s') ∪ if w = 'W' then {p} else ∅).card +
          (evicted c s s' ∩ dirtyPages c s).card := by
        rw [hinter]
        exact Nat.add_le_add_right (Finset.card_le_card ha.dirtyPages_subset) _
    _ ≤ (dirtyPages c s \ evicted c s s').card + (if w = 'W' then 1 else 0) +
          (evicted c s s' ∩ dirtyPages c s).card := by
        rw [← hnew]
        exact Nat.add_le_add_right (Finset.card_union_le _ _) _
    _ = (dirtyPages c s).card + if w = 'W' then 1 else 0 := by
        rw [Finset.inter_comm]
        omega

/-! ## The invariant -/

/-- The counters against the history, after `n` requests of which `w` were writes. -/
structure Counted (c : Config) (s : VM) (g : History) (n w : ℕ) : Prop where
  requests : s.stats.hitCount + s.stats.missCount = n
  reads : s.stats.swapRead = s.stats.missCount
  frames : s.nextFreeFrame = min (s.stats.missCount : ℤ) c.maxPFN
  evictions : (g.evictions : ℤ) + s.nextFreeFrame = s.stats.missCount
  dirty : ∀ p, c.HasPage p → (s.pte p).valid = true → (s.pte p).dirty = g.written p
  writes : s.stats.swapWrite = g.writtenEvictions
  bound : s.stats.swapWrite + (dirtyPages c s).card ≤ w

/-- The counters an access moves. -/
lemma Access.stats_eq {c : Config} {s s' : VM} {p : IPTE} {w : Char} {f : ℤ} {b : Bool}
    (ht : Tables c s) (ha : Access c s p w f b s') :
    s'.stats.hitCount + s'.stats.missCount = s.stats.hitCount + s.stats.missCount + 1 ∧
      s'.stats.swapRead + s.stats.missCount = s.stats.swapRead + s'.stats.missCount ∧
      s'.stats.swapWrite = s.stats.swapWrite +
        ((evicted c s s').filter fun q => (s.pte q).dirty = true).card := by
  have hev := ha.evicted_eq ht
  cases ha with
  | hit hv hr =>
    rw [if_neg (fun h => by rw [hv] at h; exact Bool.false_ne_true h.1.symm)] at hev
    rw [hev, afterHit_stats]
    refine ⟨?_, rfl, rfl⟩
    change s.stats.hitCount + 1 + s.stats.missCount = _
    omega
  | fill hv hn hr =>
    rw [if_neg (fun h => by omega)] at hev
    rw [hev, loadPage_stats, countMiss_stats]
    refine ⟨rfl, ?_, rfl⟩
    change s.stats.swapRead + 1 + s.stats.missCount = s.stats.swapRead + (s.stats.missCount + 1)
    omega
  | evict hv hn hr h0 hf =>
    rw [if_pos ⟨hv, hn⟩] at hev
    rw [hev, loadPage_stats, evictPage_stats, countMiss_stats]
    refine ⟨rfl, ?_, ?_⟩
    · change s.stats.swapRead + 1 + s.stats.missCount = s.stats.swapRead + (s.stats.missCount + 1)
      omega
    · rw [Finset.filter_singleton, countMiss_invertedPageTable, countMiss_pte]
      split_ifs <;> rfl

/-- A miss takes a frame or evicts one page. -/
lemma Access.frames_eq {c : Config} {s s' : VM} {p : IPTE} {w : Char} {f : ℤ} {b : Bool}
    (ht : Tables c s) (ha : Access c s p w f b s') :
    (s'.stats.missCount = s.stats.missCount ∧ s'.nextFreeFrame = s.nextFreeFrame ∧
      (evicted c s s').card = 0) ∨
    (s'.stats.missCount = s.stats.missCount + 1 ∧ s.nextFreeFrame < c.maxPFN ∧
      s'.nextFreeFrame = s.nextFreeFrame + 1 ∧ (evicted c s s').card = 0) ∨
    (s'.stats.missCount = s.stats.missCount + 1 ∧ s.nextFreeFrame = c.maxPFN ∧
      s'.nextFreeFrame = s.nextFreeFrame ∧ (evicted c s s').card = 1) := by
  have hev := ha.evicted_eq ht
  cases ha with
  | hit hv hr =>
    rw [if_neg (fun h => by rw [hv] at h; exact Bool.false_ne_true h.1.symm)] at hev
    rw [hev, afterHit_stats, afterHit_nextFreeFrame]
    exact Or.inl ⟨rfl, rfl, rfl⟩
  | fill hv hn hr =>
    rw [if_neg (fun h => by omega)] at hev
    rw [hev]
    exact Or.inr (Or.inl ⟨rfl, hn, rfl, rfl⟩)
  | evict hv hn hr h0 hf =>
    rw [if_pos ⟨hv, hn⟩] at hev
    rw [hev, loadPage_stats, evictPage_stats, loadPage_nextFreeFrame, evictPage_nextFreeFrame]
    exact Or.inr (Or.inr ⟨rfl, hn, rfl, rfl⟩)

lemma Counted.start (c : Config) (junk : VM) : Counted c (start c junk) History.start 0 0 := by
  have hpos := c.one_le_maxPFN
  refine ⟨rfl, rfl, ?_, rfl, ?_, rfl, ?_⟩
  · change (0 : ℤ) = min 0 c.maxPFN
    omega
  · intro p hp hv
    rw [start_pte junk hp] at hv
    exact absurd hv Bool.false_ne_true
  · apply le_of_eq
    have hnone : dirtyPages c (Paging.start c junk) = ∅ := by
      apply Finset.eq_empty_of_forall_notMem
      intro p hp
      obtain ⟨hpage, hv, -⟩ := mem_dirtyPages.mp hp
      rw [start_pte junk hpage] at hv
      exact Bool.false_ne_true hv
    rw [hnone]
    rfl

lemma note_finish (c : Config) (g : History) (s s' : VM) (r : Request) (f : ℤ) :
    g.note c s (finish s' r f) r = g.note c s s' r := by
  simp only [History.note, evicted, finish_pte]

lemma dirtyPages_finish (c : Config) (s : VM) (r : Request) (f : ℤ) :
    dirtyPages c (finish s r f) = dirtyPages c s := by
  simp only [dirtyPages, finish_pte]

/-- An access writes the history of the page it is for, and loads at most that page. -/
lemma Access.written_eq {c : Config} {s s' : VM} {r : Request} {f : ℤ} {b : Bool} {g : History}
    (hd : ∀ p, c.HasPage p → (s.pte p).valid = true → (s.pte p).dirty = g.written p)
    (ha : Access c s r.page r.reqType f b s') {q : IPTE} (hq : c.HasPage q)
    (hv' : (s'.pte q).valid = true) :
    (s'.pte q).dirty = (g.note c s s' r).written q := by
  rw [ha.dirty_eq hv']
  change _ = if q = r.page ∧ r.reqType = 'W' then true
    else if (s.pte q).valid = false ∧ (s'.pte q).valid = true then false else g.written q
  by_cases hqp : q = r.page
  · subst hqp
    rw [if_pos rfl]
    by_cases hw : r.reqType = 'W'
    · rw [if_pos ⟨rfl, hw⟩, decide_eq_true hw, Bool.true_or]
    · rw [if_neg fun h => hw h.2, decide_eq_false hw, Bool.false_or]
      cases hv : (s.pte r.page).valid with
      | true =>
        rw [if_neg fun h => Bool.false_ne_true h.1.symm, Bool.true_and]
        exact hd _ hq hv
      | false => rw [if_pos ⟨rfl, hv'⟩, Bool.false_and]
  · -- another page that is resident now was resident before
    have hv := ha.valid_of_ne hqp hv'
    rw [if_neg hqp, if_neg fun h => hqp h.1, if_neg fun h => ?_]
    · exact hd q hq hv
    · rw [hv] at h
      exact Bool.false_ne_true h.1.symm

theorem Counted.step {c : Config} {s s' : VM} {r : Request} {f : ℤ} {b : Bool} {g : History}
    {n w : ℕ} (hc : Counted c s g n w) (ht : Tables c s)
    (ha : Access c s r.page r.reqType f b s') :
    Counted c s' (g.note c s s' r) (n + 1) (w + if r.reqType = 'W' then 1 else 0) := by
  obtain ⟨h1, h2, h3⟩ := ha.stats_eq ht
  have hframes := ha.frames_eq ht
  have hnext := hc.frames
  have hsum := hc.evictions
  -- the history calls an evicted page written when its entry is dirty
  have hsame : (evicted c s s').filter (fun q => (s.pte q).dirty = true) =
      (evicted c s s').filter fun q => g.written q = true := by
    apply Finset.filter_congr
    intro q hq
    obtain ⟨hpage, hv, -⟩ := mem_evicted.mp hq
    rw [hc.dirty q hpage hv]
  constructor
  · rw [h1, hc.requests]
  · have := hc.reads
    omega
  · omega
  · change ((g.evictions + (evicted c s s').card : ℕ) : ℤ) + _ = _
    omega
  · exact fun q hq hv' => ha.written_eq hc.dirty hq hv'
  · change _ = g.writtenEvictions + _
    rw [h3, hc.writes, hsame]
  · have hcard := ha.card_dirtyPages
    have hb := hc.bound
    omega

lemma Counted.finish {c : Config} {s : VM} {g : History} {n w : ℕ} (hc : Counted c s g n w)
    (r : Request) (f : ℤ) : Counted c (finish s r f) g n w := by
  constructor
  · rw [finish_stats]
    exact hc.requests
  · rw [finish_stats]
    exact hc.reads
  · rw [finish_stats, finish_nextFreeFrame]
    exact hc.frames
  · rw [finish_stats, finish_nextFreeFrame]
    exact hc.evictions
  · intro p hp hv
    rw [finish_pte] at hv ⊢
    exact hc.dirty p hp hv
  · rw [finish_stats]
    exact hc.writes
  · rw [finish_stats, dirtyPages_finish]
    exact hc.bound

/-- The number of `W` requests. -/
def writeRequests (rs : List Request) : ℕ := rs.countP fun r => decide (r.reqType = 'W')

/-- The history is what an observer notes. -/
lemma history_eq (c : Config) (s : VM) (g : History) (rs : List Request) :
    history c s g rs = observe (fun g s r s' => g.note c s s' r) c s g rs := by
  induction rs generalizing s g with
  | nil => rfl
  | cons r rs ih =>
    rw [history, observe]
    cases serve c s r with
    | error e => rfl
    | ok out => exact if_congr Iff.rfl rfl (ih _ _)

/-- One more request, and one more write if it is one. -/
def countRequest (d : ℕ × ℕ) (r : Request) : ℕ × ℕ :=
  (d.1 + 1, d.2 + if r.reqType = 'W' then 1 else 0)

lemma foldl_countRequest (rs : List Request) (d : ℕ × ℕ) :
    rs.foldl countRequest d = (d.1 + rs.length, d.2 + writeRequests rs) := by
  induction rs generalizing d with
  | nil => rfl
  | cons r rs ih =>
    rw [List.foldl_cons, ih, countRequest, List.length_cons, writeRequests, writeRequests,
      List.countP_cons, Prod.mk.injEq]
    simp only [decide_eq_true_eq]
    omega

lemma run_counted {c : Config} (hl : c.replacementPolicy = .LRU → 2 ≤ c.maxPFN) {s : VM}
    {g : History} {n w : ℕ} {rs : List Request} (hrs : ∀ r ∈ rs, c.InRange r) (hi : Inv c s)
    (hc : Counted c s g n w) :
    ∃ s', (run c s rs).2 = .ok s' ∧
      Counted c s' (history c s g rs) (n + rs.length) (w + writeRequests rs) := by
  have hobserved : ∃ s', (run c s rs).2 = .ok s' ∧ Inv c s' ∧
      Counted c s' (observe (fun g s r s' => g.note c s s' r) c s g rs)
        (rs.foldl countRequest (n, w)).1 (rs.foldl countRequest (n, w)).2 := by
    refine run_simulated (P := fun s g d => Counted c s g d.1 d.2) hl countRequest (n, w) ?_ hrs
      hi hc
    intro s s' g d r f b hi hc hr ha
    rw [note_finish]
    exact (hc.step hi.tables ha).finish r f
  obtain ⟨s', hrun, -, hc'⟩ := hobserved
  rw [foldl_countRequest] at hc'
  rw [history_eq]
  exact ⟨s', hrun, hc'⟩

/-- After every sequence of requests the counters are those of the history. -/
theorem statistics_exact (c : Config) (hl : c.replacementPolicy = .LRU → 2 ≤ c.maxPFN) (junk : VM)
    (rs : List Request) (hrs : ∀ r ∈ rs, c.InRange r) :
    ∃ s, (run c (start c junk) rs).2 = .ok s ∧
      s.stats.hitCount + s.stats.missCount = rs.length ∧
      s.stats.swapRead = s.stats.missCount ∧
      (history c (start c junk) .start rs).evictions =
        s.stats.missCount - min s.stats.missCount c.maxPFN.toNat ∧
      (∀ p, c.HasPage p → (readPTE s p.pid p.VPN).valid = true →
        ((readPTE s p.pid p.VPN).dirty = true ↔
          (history c (start c junk) .start rs).written p = true)) ∧
      s.stats.swapWrite = (history c (start c junk) .start rs).writtenEvictions ∧
      s.stats.swapWrite + (dirtyPages c s).card ≤ writeRequests rs := by
  obtain ⟨s, hrun, hc⟩ := run_counted hl hrs (inv_start c junk) (Counted.start c junk)
  rw [Nat.zero_add, Nat.zero_add] at hc
  refine ⟨s, hrun, hc.requests, hc.reads, ?_, ?_, hc.writes, hc.bound⟩
  · have h1 := hc.frames
    have h2 := hc.evictions
    have h3 := c.one_le_maxPFN
    omega
  · intro p hp hv
    rw [← hc.dirty p hp hv]
    exact Iff.rfl

theorem statistics_exact_threePages :
    ∃ s, (run (twoFrames .LRU) (start (twoFrames .LRU) default) threePages).2 = .ok s ∧
      s.stats.hitCount + s.stats.missCount = 4 := by
  obtain ⟨s, hrun, hcount, -⟩ := statistics_exact (twoFrames .LRU) (fun _ => by decide) default
    threePages (by decide)
  exact ⟨s, hrun, hcount⟩

end OsProjects.Paging
