import OsProjects.Paging.Service

/-!
# When replacing never fails

`list_remove_tail` reads the predecessor of the last node, which a list of one
node does not have.  LRU on a single frame therefore ends with a null pointer
when it has to replace, and nothing else can go wrong.
-/

namespace OsProjects.Paging

variable {c : Config} {s s' : VM} {r : Request} {p q : IPTE} {f : ℤ} {b : Bool}
  {rs : List Request}

/-- The request is served without a fault, and the frames named on the way exist. -/
structure SafeRequest (c : Config) (s : VM) (r : Request) : Prop where
  served : ∃ reply s', serve c s r = .ok (reply, s')
  victim : (readPTE s r.page.pid r.page.VPN).valid = false → (getFreeframe c s).1 = -1 →
    ∃ f repl, findReplacement c s.repl = .ok (f, repl) ∧ 0 ≤ f ∧ f < c.maxPFN
  frame : (readPTE s r.page.pid r.page.VPN).valid = false →
    ∃ f s', pagefaultHandler c (countMiss s s.repl s.nextFreeFrame) r.page.pid r.page.VPN
      r.reqType = .ok (f, s') ∧ 0 ≤ f ∧ f < c.maxPFN

def SafeRun (c : Config) (s : VM) (rs : List Request) : Prop :=
  ∀ qs r, qs ++ [r] <+: rs → ∃ s', (run c s qs).2 = .ok s' ∧ SafeRequest c s' r

lemma SafeRun.head (h : SafeRun c s (r :: rs)) : SafeRequest c s r := by
  obtain ⟨s', hrun, hsafe⟩ := h [] r ⟨rs, rfl⟩
  obtain rfl := Except.ok.inj hrun
  exact hsafe

/-- A run is safe when its first request is, and the rest of it. -/
lemma safeRun_cons {reply : Reply} (hserve : serve c s r = .ok (reply, s'))
    (hexits : reply.exits = false) :
    SafeRun c s (r :: rs) ↔ SafeRequest c s r ∧ SafeRun c s' rs := by
  have hrun : ∀ qs, (run c s (r :: qs)).2 = (run c s' qs).2 := by
    intro qs
    rw [run, hserve]
    simp only [hexits]
    rfl
  constructor
  · intro h
    refine ⟨h.head, fun qs q hq => ?_⟩
    obtain ⟨m, hm, hsafe⟩ := h (r :: qs) q (List.cons_prefix_cons.mpr ⟨rfl, hq⟩)
    rw [hrun] at hm
    exact ⟨m, hm, hsafe⟩
  · rintro ⟨hhead, htail⟩ qs q hq
    cases qs with
    | nil =>
      obtain ⟨rfl, -⟩ := List.cons_prefix_cons.mp hq
      exact ⟨s, rfl, hhead⟩
    | cons q' qs =>
      obtain ⟨rfl, hqs⟩ := List.cons_prefix_cons.mp hq
      rw [hrun]
      exact htail qs q hqs

/-- On a full machine with one frame the list has one node. -/
lemma findReplacement_single {repl : Replacer} (hpol : c.replacementPolicy = .LRU)
    (h1 : c.maxPFN = 1) (hr : PolicyInv c c.maxPFN repl) :
    findReplacement c repl = .error .nullPointer := by
  simp only [PolicyInv, hpol] at hr
  obtain ⟨fs, hfs, hnd, hmem⟩ := hr
  obtain ⟨gs, f, rfl, -⟩ := lru_frames hmem
  have hgs : gs = [] := by
    cases gs with
    | nil => rfl
    | cons g gs =>
      -- two entries would be two frames
      have hg := (hmem g).mp List.mem_cons_self
      have hf := (hmem f).mp (List.mem_append_right _ (List.mem_singleton_self f))
      have hgf : g = f := by omega
      rw [List.cons_append, List.nodup_cons, hgf] at hnd
      exact absurd (List.mem_append_right _ (List.mem_singleton_self f)) hnd.1
  rw [hgs] at hfs
  simp only [findReplacement, hpol]
  exact lru_single hfs

/-- LRU needs a second frame, a free frame, or the page itself. -/
lemma safeRequest_iff (hi : Inv c s) (hr : c.InRange r) :
    SafeRequest c s r ↔ (c.replacementPolicy = .LRU →
      2 ≤ c.maxPFN ∨ s.nextFreeFrame = 0 ∨ (s.pte r.page).valid = true) := by
  have hp := hr.hasPage
  have hpos := c.one_le_maxPFN
  have h0 := hi.tables.nonneg
  have hle := hi.tables.le
  constructor
  · intro h hpol
    by_contra hno
    obtain ⟨h2, hn, hv⟩ : ¬ 2 ≤ c.maxPFN ∧ s.nextFreeFrame ≠ 0 ∧ ¬ (s.pte r.page).valid = true := by
      simpa only [not_or] using hno
    have hfull : s.nextFreeFrame = c.maxPFN := by omega
    obtain ⟨f, repl, hfind, -⟩ := h.victim (Bool.eq_false_iff.mpr hv)
      (hi.tables.getFreeframe_full.mpr hfull)
    rw [findReplacement_single hpol (by omega) (hfull ▸ hi.policy)] at hfind
    cases hfind
  · intro h
    -- the one exception is excluded
    have hnot : ∀ {P : Prop}, c.replacementPolicy = .LRU → c.maxPFN = 1 →
        (s.pte r.page).valid = false → s.nextFreeFrame = c.maxPFN → P := by
      intro P hpol h1 hv hn
      rcases h hpol with h | h | h
      · omega
      · omega
      · rw [hv] at h
        cases h
    constructor
    · rcases exists_access hi hp r.reqType with ⟨f, b, s', ha⟩ | ⟨hpol, h1, hv, hn, -⟩
      · exact ⟨_, _, serve_of_access hi hr ha⟩
      · exact hnot hpol h1 hv hn
    · intro hv hfull
      have hn := hi.tables.getFreeframe_full.mp hfull
      rcases findReplacement_inv (hn ▸ hi.policy) with ⟨f, repl, hfind, hf0, hf, -⟩ | ⟨hpol, h1, -⟩
      · exact ⟨f, repl, hfind, hf0, hf⟩
      · exact hnot hpol h1 hv hn
    · intro hv
      rcases exists_access hi hp r.reqType with ⟨f, b, s', ha⟩ | ⟨hpol, h1, -, hn, -⟩
      · cases ha with
        | hit hv' =>
          rw [show (s.pte r.page).valid = false from hv] at hv'
          cases hv'
        | fill _ hn hfill => exact ⟨_, _, pagefaultHandler_fill h0 hn hfill, h0, hn⟩
        | evict _ hn hfind hf0 hf => exact ⟨_, _, pagefaultHandler_evict hn hfind, hf0, hf⟩
      · exact hnot hpol h1 hv hn

/-! ## A single frame -/

/-- A single frame holds a single page. -/
lemma Tables.page_unique (ht : Tables c s) (h1 : c.maxPFN = 1) (hp : c.HasPage p)
    (hq : c.HasPage q) (hpv : (s.pte p).valid = true) (hqv : (s.pte q).valid = true) : p = q := by
  obtain ⟨hp0, hpn, hpi⟩ := ht.valid p hp hpv
  obtain ⟨hq0, hqn, hqi⟩ := ht.valid q hq hqv
  have hle := ht.le
  rw [← hpi, ← hqi, show (s.pte p).PFN = (s.pte q).PFN by omega]

/-- Once its only frame is taken, LRU serves nothing but the page in it. -/
lemma safeRun_single (hpol : c.replacementPolicy = .LRU) (h1 : c.maxPFN = 1)
    (hrs : ∀ r ∈ rs, c.InRange r) (hi : Inv c s) (hp : c.HasPage p)
    (hv : (s.pte p).valid = true) : SafeRun c s rs ↔ ∀ r ∈ rs, r.page = p := by
  induction rs generalizing s with
  | nil =>
    refine ⟨fun _ r hr => absurd hr List.not_mem_nil, fun _ qs r hq => ?_⟩
    exact absurd (List.prefix_nil.mp hq) (by simp)
  | cons r rs ih =>
    have hr := hrs r List.mem_cons_self
    obtain ⟨h0, hlt, -⟩ := hi.tables.valid p hp hv
    have hsafe : SafeRequest c s r ↔ r.page = p := by
      rw [safeRequest_iff hi hr]
      constructor
      · intro h
        rcases h hpol with h | h | h
        · omega
        · omega
        · exact hi.tables.page_unique h1 hr.hasPage hp h hv
      · rintro hrp -
        rw [hrp]
        exact Or.inr (Or.inr hv)
    rw [List.forall_mem_cons]
    by_cases hrp : r.page = p
    · rcases exists_access hi hr.hasPage r.reqType with ⟨f, b, s', ha⟩ | ⟨-, -, hv', -⟩
      · have hres := (ha.resident hi.tables hr.hasPage).2.2.1
        rw [safeRun_cons (serve_of_access hi hr ha) (replyOf_exits _ _ _ _), hsafe,
          ih (fun q hq => hrs q (List.mem_cons_of_mem _ hq)) ((ha.inv hi hr.hasPage).finish r f)
            (by rw [finish_pte, ← hrp, hres])]
      · rw [hrp, hv] at hv'
        cases hv'
    · exact ⟨fun h => absurd (hsafe.mp h.head) hrp, fun h => absurd h.1 hrp⟩

/-- No request ends with a null pointer and every frame is in range, unless LRU has a single
frame and two different pages are requested. -/
theorem safeRun_iff (c : Config) (junk : VM) (rs : List Request) (hrs : ∀ r ∈ rs, c.InRange r) :
    SafeRun c (start c junk) rs ↔
      (c.replacementPolicy = .LRU → 2 ≤ c.maxPFN ∨ ∀ r ∈ rs, ∀ q ∈ rs, r.page = q.page) := by
  have hstart := inv_start c junk
  by_cases hl : c.replacementPolicy = .LRU → 2 ≤ c.maxPFN
  · refine ⟨fun _ hpol => Or.inl (hl hpol), fun _ qs r hq => ?_⟩
    have hqs : ∀ q ∈ qs ++ [r], c.InRange q := fun q hmem => hrs q (hq.subset hmem)
    have hqs' : ∀ q ∈ qs, c.InRange q := fun q hmem => hqs q (List.mem_append_left _ hmem)
    obtain ⟨s', hs, hrun⟩ := run_served hl hqs' hstart
    refine ⟨s', hrun, (safeRequest_iff (hs.inv hqs' hstart) (hqs r (by simp))).mpr ?_⟩
    exact fun hpol => Or.inl (hl hpol)
  · obtain ⟨hpol, h2⟩ : c.replacementPolicy = .LRU ∧ ¬ 2 ≤ c.maxPFN := by simpa using hl
    have hpos := c.one_le_maxPFN
    have h1 : c.maxPFN = 1 := by omega
    cases rs with
    | nil =>
      refine ⟨fun _ _ => Or.inr fun r hr => absurd hr List.not_mem_nil, fun _ qs r hq => ?_⟩
      exact absurd (List.prefix_nil.mp hq) (by simp)
    | cons r rs =>
      have hr := hrs r List.mem_cons_self
      have hn : (start c junk).nextFreeFrame = 0 := rfl
      rcases exists_access hstart hr.hasPage r.reqType with ⟨f, b, s', ha⟩ | ⟨-, -, -, hfull, -⟩
      · have hres := (ha.resident hstart.tables hr.hasPage).2.2.1
        have hhead : SafeRequest c (start c junk) r :=
          (safeRequest_iff hstart hr).mpr fun _ => Or.inr (Or.inl hn)
        rw [safeRun_cons (serve_of_access hstart hr ha) (replyOf_exits _ _ _ _),
          safeRun_single hpol h1 (fun q hq => hrs q (List.mem_cons_of_mem _ hq))
            ((ha.inv hstart hr.hasPage).finish r f) hr.hasPage (by rw [finish_pte, hres])]
        constructor
        · rintro ⟨-, h⟩ -
          have hall : ∀ q ∈ r :: rs, q.page = r.page := List.forall_mem_cons.mpr ⟨rfl, h⟩
          exact Or.inr fun q hq q' hq' => (hall q hq).trans (hall q' hq').symm
        · intro h
          refine ⟨hhead, fun q hq => ?_⟩
          rcases h hpol with h2' | h
          · exact absurd h2' h2
          · exact h q (List.mem_cons_of_mem _ hq) r List.mem_cons_self
      · omega

/-- Three pages that share one frame. -/
def oneFrame : Config := { twoFrames .LRU with maxPFN := 1, one_le_maxPFN := le_rfl }

/-- The first two pages are read in turn. -/
def twoPages : List Request := [⟨0, 'R', 0, 0⟩, ⟨0, 'R', 256, 0⟩]

theorem safeRun_iff_oneFrame :
    ¬ SafeRun oneFrame (start oneFrame default) twoPages := by
  rw [safeRun_iff oneFrame default twoPages (by decide)]
  decide

theorem not_safeRun_oneFrame :
    ¬ ∀ (c : Config) (junk : VM) (rs : List Request), (∀ r ∈ rs, c.InRange r) →
      SafeRun c (start c junk) rs := by
  intro h
  obtain ⟨s', hrun, hsafe⟩ := h oneFrame default twoPages (by decide) [⟨0, 'R', 0, 0⟩]
    ⟨0, 'R', 256, 0⟩ ⟨[], rfl⟩
  obtain ⟨reply, s'', hserve⟩ := hsafe.served
  have herr : ((run oneFrame (start oneFrame default) [⟨0, 'R', 0, 0⟩]).2.bind
      fun s => serve oneFrame s ⟨0, 'R', 256, 0⟩).isOk = false := by
    rfl
  rw [hrun] at herr
  change (serve oneFrame s' ⟨0, 'R', 256, 0⟩).isOk = false at herr
  rw [hserve] at herr
  cases herr

end OsProjects.Paging
