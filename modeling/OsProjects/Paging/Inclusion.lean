import OsProjects.Paging.Service
import OsProjects.Library.Recency

/-!
# LRU has the inclusion property

`LruOrder c s l` says that the linked list lists the resident pages `l`, the most
recently accessed one first.  An access is a step of the recency list, so two
runs with different numbers of frames stay coupled by `take`.
-/

namespace OsProjects.Paging
open Recency

def LruOrder (s : VM) (l : List IPTE) : Prop :=
  ∃ fs, LruList s.repl fs ∧ fs.Nodup ∧ (∀ f, f ∈ fs ↔ 0 ≤ f ∧ f < s.nextFreeFrame) ∧
    l = fs.map s.invertedPageTable

variable {c : Config} {s s' : VM} {p : IPTE} {w : Char} {f : ℤ} {b : Bool} {l : List IPTE}

lemma lruOrder_start (c : Config) (junk : VM) : LruOrder (start c junk) [] := by
  refine ⟨[], ⟨[], DoublyLinked.IsList.nil _, rfl⟩, List.nodup_nil, fun f => ?_, rfl⟩
  change f ∈ [] ↔ 0 ≤ f ∧ f < 0
  simp

/-- The listed pages are the resident ones. -/
lemma LruOrder.mem_iff (ht : Tables c s) (hl : LruOrder s l) (hp : c.HasPage p) :
    p ∈ l ↔ (s.pte p).valid = true := by
  obtain ⟨fs, -, -, hmem, rfl⟩ := hl
  rw [List.mem_map]
  constructor
  · rintro ⟨f, hf, rfl⟩
    obtain ⟨h0, hlt⟩ := (hmem f).mp hf
    exact (ht.frame f h0 hlt).2.1
  · intro hv
    obtain ⟨h0, hlt, hip⟩ := ht.valid p hp hv
    exact ⟨_, (hmem _).mpr ⟨h0, hlt⟩, hip⟩

lemma length_frames {fs : List ℤ} {n : ℤ} (hnd : fs.Nodup) (hmem : ∀ f, f ∈ fs ↔ 0 ≤ f ∧ f < n) :
    fs.length = n.toNat := by
  have hset : fs.toFinset = Finset.Ico 0 n := by
    ext f
    simp [hmem]
  rw [← List.toFinset_card_of_nodup hnd, hset, Int.card_Ico, sub_zero]

/-- Erasing a frame erases its page, as two frames never hold one page. -/
lemma map_erase_frame {g : ℤ → IPTE} {fs : List ℤ} (hf : f ∈ fs)
    (hinj : ∀ e ∈ fs, g e = g f → e = f) : (fs.erase f).map g = (fs.map g).erase (g f) := by
  obtain ⟨d₁, d₂, hnot, hd, her⟩ := List.exists_erase_eq hf
  have hmap : g f ∉ d₁.map g := by
    intro hm
    obtain ⟨e, he, hge⟩ := List.mem_map.mp hm
    have : e = f := hinj e (by rw [hd]; exact List.mem_append_left _ he) hge
    exact hnot (this ▸ he)
  rw [her, hd, List.map_append, List.map_append, List.map_cons,
    List.erase_append_right _ hmap, List.erase_cons_head]

lemma LruOrder.finish (h : LruOrder s l) (r : Request) (f : ℤ) : LruOrder (finish s r f) l := by
  simpa only [LruOrder, finish_repl, finish_nextFreeFrame, finish_invertedPageTable] using h

/-- Every access is a step of the recency list. -/
theorem Access.lruOrder (hpol : c.replacementPolicy = .LRU) (ht : Tables c s) (hp : c.HasPage p)
    (hl : LruOrder s l) (ha : Access c s p w f b s') :
    LruOrder s' (lruStep c.maxPFN.toNat l p) := by
  have hmem_l := hl.mem_iff ht hp
  obtain ⟨fs, hfs, hnd, hmem, rfl⟩ := hl
  have hlen := length_frames hnd hmem
  have hle := ht.le
  have h0 := ht.nonneg
  cases ha with
  | hit hv hr =>
    obtain ⟨hf0, hf, hip⟩ := ht.valid p hp hv
    have hfm := (hmem _).mpr ⟨hf0, hf⟩
    obtain ⟨r', hr', hfs'⟩ := noteHit_lru hpol hfs hfm
    obtain rfl := Except.ok.inj (hr.symm.trans hr')
    have hperm := List.perm_cons_erase hfm
    refine ⟨_, by rw [afterHit_repl]; exact hfs', hperm.nodup_iff.mp hnd, fun g => ?_, ?_⟩
    · rw [← hperm.mem_iff, hmem, afterHit_nextFreeFrame]
    · rw [lruStep_of_mem (hmem_l.mpr hv) (by rw [List.length_map]; omega),
        afterHit_invertedPageTable, List.map_cons, hip, map_erase_frame hfm, hip]
      intro e he hee
      obtain ⟨he0, hen⟩ := (hmem e).mp he
      exact ht.page_inj he0 hen hf0 hf hee
  | fill hv hn hr =>
    obtain ⟨r', hr', hfs'⟩ := noteFill_lru s.nextFreeFrame hpol hfs
    obtain rfl := Except.ok.inj (hr.symm.trans hr')
    -- the frame is new in the list, and so is the page
    have hfresh : s.nextFreeFrame ∉ fs := fun hm => absurd ((hmem _).mp hm).2 (lt_irrefl _)
    have hpl : p ∉ fs.map s.invertedPageTable := by
      rw [hmem_l, hv]
      exact Bool.false_ne_true
    refine ⟨_, hfs', List.nodup_cons.mpr ⟨hfresh, hnd⟩, fun g => ?_, ?_⟩
    · rw [List.mem_cons, hmem, loadPage_nextFreeFrame, countMiss_nextFreeFrame]
      omega
    · rw [lruStep_of_lt hpl (by rw [List.length_map]; omega), loadPage_invertedPageTable,
        List.map_cons, Function.update_self, List.cons.injEq]
      refine ⟨rfl, List.map_congr_left fun g hg => ?_⟩
      rw [Function.update_of_ne (ne_of_mem_of_not_mem hg hfresh), countMiss_invertedPageTable]
  | evict hv hn hr hf0 hf =>
    rw [hn] at hmem
    obtain ⟨gs, rfl, hfs'⟩ := findReplacement_lru hpol hfs hmem hr
    have hperm : (gs ++ [f]).Perm (f :: gs) := List.perm_append_singleton f gs
    have hpl : p ∉ (gs ++ [f]).map s.invertedPageTable := by
      rw [hmem_l, hv]
      exact Bool.false_ne_true
    have hfg : f ∉ gs := (List.nodup_cons.mp (hperm.nodup_iff.mp hnd)).1
    rw [List.length_append, List.length_singleton] at hlen
    refine ⟨f :: gs, ?_, hperm.nodup_iff.mp hnd, fun g => ?_, ?_⟩
    · rw [loadPage_repl, evictPage_repl, countMiss_repl]
      exact hfs'
    · rw [← hperm.mem_iff, hmem, loadPage_nextFreeFrame, evictPage_nextFreeFrame,
        countMiss_nextFreeFrame, hn]
    · rw [List.map_append, List.map_singleton] at hpl ⊢
      rw [lruStep_of_full hpl (by rw [List.length_map]; omega), loadPage_invertedPageTable,
        List.map_cons, Function.update_self, List.cons.injEq]
      refine ⟨rfl, List.map_congr_left fun g hg => ?_⟩
      rw [Function.update_of_ne (ne_of_mem_of_not_mem hg hfg), evictPage_invertedPageTable,
        countMiss_invertedPageTable]

/-! ## Two runs -/

/-- Counting: an access is a miss exactly when the page was not valid. -/
lemma Access.missCount (ha : Access c s p w f b s') :
    b = (s.pte p).valid ∧
      s'.stats.missCount = s.stats.missCount + if (s.pte p).valid = true then 0 else 1 := by
  cases ha with
  | hit hv hr =>
    refine ⟨hv.symm, ?_⟩
    rw [hv, if_pos rfl, afterHit]
    split_ifs <;> rfl
  | fill hv hn hr =>
    refine ⟨hv.symm, ?_⟩
    rw [hv, if_neg Bool.false_ne_true]
    rfl
  | evict hv hn hr h0 hf =>
    obtain ⟨pt, sd, n, h⟩ := evictPage_frame (countMiss s _ s.nextFreeFrame) _
    refine ⟨hv.symm, ?_⟩
    rw [hv, if_neg Bool.false_ne_true, h]
    rfl

/-- A run with few frames beside a run with more: the one's recency list is the
front part of the other's, and the other has missed no more often. -/
structure Coupled (c c' : Config) (s s' : VM) : Prop where
  inv : Inv c s
  inv' : Inv c' s'
  order : ∃ l, LruOrder s (l.take c.maxPFN.toNat) ∧ LruOrder s' l
  miss : s'.stats.missCount ≤ s.stats.missCount

variable {c' : Config}

/-- Everything resident with few frames is resident with more. -/
lemma Coupled.valid {t : VM} (hst : Coupled c c' s t) (hp : c.HasPage p) (hp' : c'.HasPage p)
    (hv : (s.pte p).valid = true) : (t.pte p).valid = true := by
  obtain ⟨l, hl, hl'⟩ := hst.order
  rw [← hl.mem_iff hst.inv.tables hp] at hv
  rw [← hl'.mem_iff hst.inv'.tables hp']
  exact List.mem_of_mem_take hv

lemma Coupled.access {t t' : VM} {r : Request} {f' : ℤ} {b' : Bool}
    (hpol : c.replacementPolicy = .LRU) (hpol' : c'.replacementPolicy = .LRU)
    (hk : c.maxPFN ≤ c'.maxPFN) (hr : c.InRange r) (hr' : c'.InRange r) (hst : Coupled c c' s t)
    (ha : Access c s r.page r.reqType f b s') (ha' : Access c' t r.page r.reqType f' b' t') :
    Coupled c c' (finish s' r f) (finish t' r f') := by
  have hp := hr.hasPage
  have hp' := hr'.hasPage
  refine ⟨(ha.inv hst.inv hp).finish _ _, (ha'.inv hst.inv' hp').finish _ _, ?_, ?_⟩
  · obtain ⟨l, hl, hl'⟩ := hst.order
    have h1 := ha.lruOrder hpol hst.inv.tables hp hl
    have h2 := ha'.lruOrder hpol' hst.inv'.tables hp' hl'
    rw [lruStep_take (Int.toNat_le_toNat hk)] at h1
    exact ⟨lruStep c'.maxPFN.toNat l r.page, h1.finish r f, h2.finish r f'⟩
  · rw [finish_stats, finish_stats, ha.missCount.2, ha'.missCount.2]
    have hmiss := hst.miss
    by_cases hv : (s.pte r.page).valid = true
    · rw [if_pos hv, if_pos (hst.valid hp hp' hv)]
      exact hmiss
    · rw [if_neg hv]
      split_ifs <;> omega

theorem Coupled.served {t u u' : VM} {rs : List Request}
    (hpol : c.replacementPolicy = .LRU) (hpol' : c'.replacementPolicy = .LRU)
    (hk : c.maxPFN ≤ c'.maxPFN) (hrs : ∀ r ∈ rs, c.InRange r) (hrs' : ∀ r ∈ rs, c'.InRange r)
    (hst : Coupled c c' s t) (hs : Served c s rs u) (ht : Served c' t rs u') :
    Coupled c c' u u' := by
  induction rs generalizing s t with
  | nil =>
    cases hs
    cases ht
    exact hst
  | cons r rs ih =>
    cases hs with
    | cons ha hs =>
      cases ht with
      | cons ha' ht =>
        exact ih (fun q hq => hrs q (List.mem_cons_of_mem _ hq))
          (fun q hq => hrs' q (List.mem_cons_of_mem _ hq))
          (hst.access hpol hpol' hk (hrs r List.mem_cons_self) (hrs' r List.mem_cons_self) ha ha')
          hs ht

/-- The flag `*hit` as reported. -/
def Reply.isHit : Reply → Bool
  | .read _ _ (some hit) => hit
  | .written _ _ (some hit) => hit
  | _ => false

/-- The reply to a request tells whether its page was valid before it. -/
lemma run_isHit (hl : c.replacementPolicy = .LRU → 2 ≤ c.maxPFN) {rs : List Request}
    (hrs : ∀ r ∈ rs, c.InRange r) (hi : Inv c s) {i : ℕ} {r : Request} (hr : rs[i]? = some r) :
    ∃ u reply, Served c s (rs.take i) u ∧ (run c s rs).1[i]? = some reply ∧
      reply.isHit = (u.pte r.page).valid := by
  induction rs generalizing s i with
  | nil => simp at hr
  | cons q rs ih =>
    have hq := hrs q List.mem_cons_self
    rcases serve_in_range hi hq with ⟨f, b, s₁, ha, hserve⟩ | ⟨h1, h2, -⟩
    · rw [run, hserve]
      simp only [replyOf_exits]
      cases i with
      | zero =>
        obtain rfl : q = r := by simpa using hr
        refine ⟨s, replyOf s₁ q f b, .nil s, rfl, ?_⟩
        rw [← ha.missCount.1, replyOf]
        split_ifs <;> rfl
      | succ i =>
        obtain ⟨u, reply, hu, hrep, hhit⟩ := ih (fun q hq => hrs q (List.mem_cons_of_mem _ hq))
          ((ha.inv hi hq.hasPage).finish q f) (by simpa using hr)
        exact ⟨u, reply, .cons ha hu, by simpa using hrep, hhit⟩
    · have := hl h1
      omega

lemma coupled_start (c c' : Config) (junk junk' : VM) :
    Coupled c c' (start c junk) (start c' junk') :=
  ⟨inv_start c junk, inv_start c' junk',
    ⟨[], by simpa using lruOrder_start c junk, lruOrder_start c' junk'⟩, le_rfl⟩

/-- LRU with more frames keeps every page resident that LRU with fewer frames keeps, hits
wherever it hits, and misses no more often. -/
theorem lru_inclusion (c c' : Config) (hpol : c.replacementPolicy = .LRU)
    (hpol' : c'.replacementPolicy = .LRU) (hVPN : c'.maxVPN = c.maxVPN)
    (hPID : c'.maxPID = c.maxPID) (h2 : 2 ≤ c.maxPFN) (hk : c.maxPFN ≤ c'.maxPFN)
    (junk junk' : VM) (rs : List Request) (hrs : ∀ r ∈ rs, c.InRange r) :
    ∃ s s', (run c (start c junk) rs).2 = .ok s ∧ (run c' (start c' junk') rs).2 = .ok s' ∧
      (∀ p, c.HasPage p → (readPTE s p.pid p.VPN).valid = true →
        (readPTE s' p.pid p.VPN).valid = true) ∧
      (∀ (i : ℕ) (reply : Reply), (run c (start c junk) rs).1[i]? = some reply →
        reply.isHit = true → ∃ reply', (run c' (start c' junk') rs).1[i]? = some reply' ∧
          reply'.isHit = true) ∧
      s'.stats.missCount ≤ s.stats.missCount := by
  have hpage : ∀ p, c.HasPage p → c'.HasPage p := fun p hp => by
    rw [Config.HasPage, hVPN, hPID]
    exact hp
  have hrange : ∀ r, c.InRange r → c'.InRange r := fun r hr =>
    ⟨hr.1, by rw [hPID]; exact hr.2, hr.3, by rw [hVPN]; exact hr.4, hr.5⟩
  have hrs' : ∀ r ∈ rs, c'.InRange r := fun r hr => hrange r (hrs r hr)
  have hl : c.replacementPolicy = .LRU → 2 ≤ c.maxPFN := fun _ => h2
  have hl' : c'.replacementPolicy = .LRU → 2 ≤ c'.maxPFN := fun _ => h2.trans hk
  obtain ⟨s, hs, hrun⟩ := run_served hl hrs (inv_start c junk)
  obtain ⟨s', hs', hrun'⟩ := run_served hl' hrs' (inv_start c' junk')
  have hend := (coupled_start c c' junk junk').served hpol hpol' hk hrs hrs' hs hs'
  refine ⟨s, s', hrun, hrun', fun p hp hv => hend.valid hp (hpage p hp) hv, ?_, hend.miss⟩
  intro i reply hreply hhit
  have hi : i < rs.length := by
    have hlt := (List.getElem?_eq_some_iff.mp hreply).1
    rwa [run_length hl hrs (inv_start c junk)] at hlt
  have hri : rs[i]? = some rs[i] := List.getElem?_eq_getElem hi
  have hr := hrs _ (List.getElem_mem hi)
  obtain ⟨u, q, hu, hq, hqv⟩ := run_isHit hl hrs (inv_start c junk) hri
  obtain ⟨u', q', hu', hq', hqv'⟩ := run_isHit hl' hrs' (inv_start c' junk') hri
  obtain rfl : q = reply := Option.some.inj (hq.symm.trans hreply)
  have hmid := (coupled_start c c' junk junk').served hpol hpol' hk
    (fun r hr => hrs r (List.mem_of_mem_take hr)) (fun r hr => hrs' r (List.mem_of_mem_take hr))
    hu hu'
  refine ⟨q', hq', ?_⟩
  rw [hqv']
  exact hmid.valid hr.hasPage (hpage _ hr.hasPage) (hqv.symm.trans hhit)

theorem lru_inclusion_threePages :
    ∃ s s', (run (twoFrames .LRU) (start (twoFrames .LRU) default) threePages).2 = .ok s ∧
      (run { twoFrames .LRU with maxPFN := 3, one_le_maxPFN := by decide }
        (start { twoFrames .LRU with maxPFN := 3, one_le_maxPFN := by decide } default)
          threePages).2 = .ok s' ∧
      s'.stats.missCount ≤ s.stats.missCount := by
  obtain ⟨s, s', hs, hs', -, -, hle⟩ := lru_inclusion (twoFrames .LRU)
    { twoFrames .LRU with maxPFN := 3, one_le_maxPFN := by decide } rfl rfl rfl rfl (by decide)
    (by decide) default default threePages (by decide)
  exact ⟨s, s', hs, hs', hle⟩

end OsProjects.Paging
