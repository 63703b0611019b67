import OsProjects.Paging.Inclusion

/-!
# FIFO, LRU and CLOCK are conservative

Inside a window of requests, `T` tells which frames hold a page touched in the
window and `L` which hold a page loaded in it.  `PolicyGuard` says that a frame
in `L` is not the next victim before all others are in `T`.  So while the window
touches no more pages than there are frames, no page is loaded in it twice.
-/

namespace OsProjects.Paging
open Hand

def PolicyGuard (c : Config) (r : Replacer) (T L : ℤ → Prop) : Prop :=
  match c.replacementPolicy with
  | .ZERO => False
  | .FIFO => ∀ f, 0 ≤ f → f < c.maxPFN → L f → Guarded c.maxPFN r.fifoTail T f
  | .LRU => ∃ fs, LruList r fs ∧ fs.Pairwise fun g f => L f → T g
  | .CLOCK => ∀ ref, r.clockRef = some ref →
      ∀ f, 0 ≤ f → f < c.maxPFN → L f → SecondChance c.maxPFN r.clockTail ref T f

variable {c : Config} {r r' : Replacer} {T S L M : ℤ → Prop} {n f : ℤ}

/-- Nothing is loaded yet when the window begins. -/
lemma policyGuard_empty (hz : c.replacementPolicy ≠ .ZERO) (hi : PolicyInv c n r)
    (hL : ∀ f, ¬ L f) : PolicyGuard c r T L := by
  cases hp : c.replacementPolicy with
  | ZERO => exact absurd hp hz
  | FIFO =>
    simp only [PolicyGuard, hp]
    exact fun f _ _ h => absurd h (hL f)
  | LRU =>
    simp only [PolicyInv, hp] at hi
    obtain ⟨fs, hfs, -, -⟩ := hi
    simp only [PolicyGuard, hp]
    exact ⟨fs, hfs, List.pairwise_of_forall fun g f h => absurd h (hL f)⟩
  | CLOCK =>
    simp only [PolicyGuard, hp]
    exact fun _ _ f _ _ h => absurd h (hL f)

lemma noteHit_guard (hi : PolicyInv c n r) (hg : PolicyGuard c r T L)
    (hr : noteHit c r f = .ok r') (h0 : 0 ≤ f) (hf : f < n) (hS : ∀ g, T g → S g) (hSf : S f) :
    PolicyGuard c r' S L := by
  cases hp : c.replacementPolicy with
  | ZERO => simp only [PolicyGuard, hp] at hg
  | FIFO =>
    simp only [noteHit, hp] at hr
    obtain rfl := Except.ok.inj hr
    simp only [PolicyGuard, hp] at hg ⊢
    exact fun e he0 hek he g hg0 hgk hlt => hS g (hg e he0 hek he g hg0 hgk hlt)
  | LRU =>
    simp only [PolicyInv, hp] at hi
    simp only [PolicyGuard, hp] at hg ⊢
    obtain ⟨fs, hfs, -, hmem⟩ := hi
    obtain ⟨fs', hfs', hpair⟩ := hg
    obtain rfl := hfs.unique hfs'
    obtain ⟨r₁, hr₁, hlist⟩ := noteHit_lru hp hfs ((hmem f).mpr ⟨h0, hf⟩)
    obtain rfl := Except.ok.inj (hr.symm.trans hr₁)
    refine ⟨_, hlist, List.pairwise_cons.mpr ⟨fun _ _ _ => hSf, ?_⟩⟩
    exact (hpair.sublist List.erase_sublist).imp fun h hL => hS _ (h hL)
  | CLOCK =>
    simp only [PolicyGuard, hp] at hg ⊢
    cases href : r.clockRef with
    | none => simp [noteHit, hp, href] at hr
    | some ref =>
      simp only [noteHit, hp, href] at hr
      obtain rfl := Except.ok.inj hr
      intro ref' href' e he0 hek he
      obtain rfl := Option.some.inj href'
      exact ((hg ref href e he0 hek he).mono hS).setBit hSf

lemma noteFill_guard (hi : PolicyInv c n r) (hg : PolicyGuard c r T L)
    (hr : noteFill c r n = .ok r') (h0 : 0 ≤ n) (hn : n < c.maxPFN) (hS : ∀ g, T g → S g)
    (hSn : ∀ g, n ≤ g → S g) (hL : ∀ f, L f → f < n) (hM : ∀ f, M f → f = n ∨ L f) :
    PolicyGuard c r' S M := by
  cases hp : c.replacementPolicy with
  | ZERO => simp only [PolicyGuard, hp] at hg
  | FIFO =>
    simp only [noteFill, hp] at hr
    obtain rfl := Except.ok.inj hr
    simp only [PolicyInv, hp] at hi
    simp only [PolicyGuard, hp] at hg ⊢
    intro e he0 hek he g hg0 hgk hlt
    rcases hM e he with rfl | heL
    · apply hSn
      rw [hi.2.2 hn] at hlt
      simp only [ahead, if_pos h0, if_pos hg0] at hlt
      omega
    · exact hS g (hg e he0 hek heL g hg0 hgk hlt)
  | LRU =>
    simp only [PolicyGuard, hp] at hg ⊢
    obtain ⟨fs, hfs, hpair⟩ := hg
    simp only [PolicyInv, hp] at hi
    obtain ⟨fs', hfs', -, hmem⟩ := hi
    obtain rfl := hfs.unique hfs'
    obtain ⟨r₁, hr₁, hlist⟩ := noteFill_lru n hp hfs
    obtain rfl := Except.ok.inj (hr.symm.trans hr₁)
    refine ⟨_, hlist, List.pairwise_cons.mpr ⟨fun _ _ _ => hSn n le_rfl, ?_⟩⟩
    refine hpair.imp_of_mem fun {g e} hg he h hMe => ?_
    refine hS _ (h ((hM e hMe).resolve_left ?_))
    have := ((hmem e).mp he).2
    omega
  | CLOCK =>
    simp only [PolicyInv, hp] at hi
    simp only [PolicyGuard, hp] at hg ⊢
    obtain ⟨-, -, hbits⟩ := hi
    -- while frames are free, all bits are set and the hand is at frame 0
    have hnew : ∀ ref : ℤ → ℤ, ref n = 1 → SecondChance c.maxPFN 0 ref S n := by
      refine fun ref h1 => ⟨fun g hg0 hgk hlt => Or.inl (hSn g ?_), fun h => ?_⟩
      · simp only [ahead, if_pos h0, if_pos hg0] at hlt
        omega
      · rw [h1] at h
        exact absurd h one_ne_zero
    cases href : r.clockRef with
    | none =>
      rw [href] at hbits
      simp only [noteFill, hp, href] at hr
      obtain rfl := Except.ok.inj hr
      intro ref' href' e he0 hek he
      obtain rfl := Option.some.inj href'
      rcases hM e he with rfl | heL
      · rw [hbits.2]
        exact hnew _ rfl
      · have := hL e heL
        omega
    | some ref =>
      rw [href] at hbits
      obtain ⟨htail, hall⟩ := hbits.2 hn
      simp only [noteFill, hp, href] at hr
      obtain rfl := Except.ok.inj hr
      rintro ref' href' e he0 hek he
      obtain rfl : ref = ref' := Option.some.inj (href.symm.trans href')
      rcases hM e he with rfl | heL
      · rw [htail]
        exact hnew ref (hall e)
      · exact (hg ref href e he0 hek heL).mono hS

/-- The victim, if loaded in the window, leaves no frame untouched; and the guard survives
the replacement of its page. -/
lemma findReplacement_guard (hi : PolicyInv c c.maxPFN r) (hg : PolicyGuard c r T L)
    (hr : findReplacement c r = .ok (f, r')) :
    (L f → ∀ g, 0 ≤ g → g < c.maxPFN → g ≠ f → T g) ∧
    ∀ S M : ℤ → Prop, (∀ g, g ≠ f → T g → S g) → S f → (∀ g, g ≠ f → M g → L g) →
      PolicyGuard c r' S M := by
  have hpos := c.one_le_maxPFN
  cases hp : c.replacementPolicy with
  | ZERO => simp only [PolicyGuard, hp] at hg
  | FIFO =>
    simp only [PolicyInv, hp] at hi
    simp only [PolicyGuard, hp] at hg ⊢
    simp only [findReplacement, hp, fifo, Except.ok.injEq, Prod.mk.injEq] at hr
    obtain ⟨rfl, rfl⟩ := hr
    obtain ⟨h0, hk, -⟩ := hi
    constructor
    · intro hL g hg0 hgk hne
      exact (hg _ h0 hk hL).at_hand hk hg0 hgk hne
    · intro S M hS hSf hM e he0 hek he
      exact Guarded.advance h0 hk he0 hek (fun hne => hg e he0 hek (hM e hne he)) hS hSf
  | LRU =>
    simp only [PolicyInv, hp] at hi
    simp only [PolicyGuard, hp] at hg ⊢
    obtain ⟨fs, hfs, hnd, hmem⟩ := hi
    obtain ⟨fs', hfs', hpair⟩ := hg
    obtain rfl := hfs.unique hfs'
    obtain ⟨gs, rfl, hlist⟩ := findReplacement_lru hp hfs hmem hr
    obtain ⟨hpair₁, -, hpair₂⟩ := List.pairwise_append.mp hpair
    have hfg : f ∉ gs := fun h => (List.nodup_append.mp hnd).2.2 f h f (by simp) rfl
    constructor
    · intro hL g hg0 hgk hne
      have hgm : g ∈ gs := by
        have := (hmem g).mpr ⟨hg0, hgk⟩
        rw [List.mem_append, List.mem_singleton] at this
        exact this.resolve_right hne
      exact hpair₂ g hgm f (by simp) hL
    · intro S M hS hSf hM
      refine ⟨_, hlist, List.pairwise_cons.mpr ⟨fun _ _ _ => hSf, ?_⟩⟩
      refine hpair₁.imp_of_mem fun {g e} hg he h hMe => ?_
      exact hS _ (ne_of_mem_of_not_mem hg hfg) (h (hM _ (ne_of_mem_of_not_mem he hfg) hMe))
  | CLOCK =>
    simp only [PolicyInv, hp] at hi
    simp only [PolicyGuard, hp] at hg ⊢
    obtain ⟨ht0, htk, hbits⟩ := hi
    obtain ⟨ref, ref₂, tail₂, href, hloop, rfl⟩ := findReplacement_clock hp hr
    rw [href] at hbits
    -- clearing bits keeps every loaded frame guarded
    obtain ⟨ref₁, ⟨⟨-, hf0, hfk⟩, hguard⟩, hzero, rfl, rfl⟩ := clockLoop_invariant
      (I := fun ref t => ((∀ g, ref g = 0 ∨ ref g = 1) ∧ 0 ≤ t ∧ t < c.maxPFN) ∧
        ∀ f, 0 ≤ f → f < c.maxPFN → L f → SecondChance c.maxPFN t ref T f)
      (fun ref t h => h.1.1 t)
      (fun ref t h h1 => ⟨⟨bits_update h.1.1 t (Or.inl rfl), succ_mod_nonneg (by omega),
          succ_mod_lt (by omega)⟩,
        fun f hf0 hfk hf => (h.2 f hf0 hfk hf).clear h.1.2.1 h.1.2.2 hf0 hfk h1⟩)
      ⟨⟨hbits.1, ht0, htk⟩, hg ref href⟩ hloop
    constructor
    · intro hL g hg0 hgk hne
      exact (hguard f hf0 hfk hL).at_hand hfk hzero hg0 hgk hne
    · intro S M hS hSf hM ref' href' g hg0 hgk hgM
      obtain rfl := Option.some.inj href'
      exact SecondChance.advance hf0 hfk hg0 hgk
        (fun hne => hguard g hg0 hgk (hM g hne hgM)) hS hSf

/-! ## Windows -/

/-- The machine inside a window that began with `m` misses: `T` are the pages
touched so far, `L` the ones loaded. -/
structure Window (c : Config) (s : VM) (T L : Finset IPTE) (m : ℕ) : Prop where
  inv : Inv c s
  subset : L ⊆ T
  resident : ∀ p ∈ L, c.HasPage p ∧ (s.pte p).valid = true
  missCount : s.stats.missCount = m + L.card
  guard : PolicyGuard c s.repl (fun g => g < s.nextFreeFrame → s.invertedPageTable g ∈ T)
    (fun g => 0 ≤ g ∧ g < s.nextFreeFrame ∧ s.invertedPageTable g ∈ L)

variable {s s' t : VM} {p : IPTE} {w : Char} {A B : Finset IPTE} {m : ℕ} {b : Bool}

lemma window_empty (hz : c.replacementPolicy ≠ .ZERO) (hi : Inv c s) :
    Window c s ∅ ∅ s.stats.missCount := by
  refine ⟨hi, subset_rfl, fun p hp => absurd hp (Finset.notMem_empty p), rfl, ?_⟩
  exact policyGuard_empty hz hi.policy fun f hf => absurd hf.2.2 (Finset.notMem_empty _)

lemma Window.finish (hw : Window c s A B m) (r : Request) (f : ℤ) :
    Window c (finish s r f) A B m := by
  refine ⟨hw.inv.finish r f, hw.subset, fun p hp => ?_, ?_, ?_⟩
  · rw [finish_pte]
    exact hw.resident p hp
  · rw [finish_stats]
    exact hw.missCount
  · rw [finish_repl, finish_nextFreeFrame, finish_invertedPageTable]
    exact hw.guard

/-- The frames of a full machine hold `maxPFN` pages, so a page that is absent makes one more. -/
lemma frames_card (ht : Tables c s) (hn : s.nextFreeFrame = c.maxPFN)
    (hv : (s.pte p).valid = false) (hall : ∀ g, 0 ≤ g → g < c.maxPFN → s.invertedPageTable g ∈ A) :
    c.maxPFN < (insert p A).card := by
  have hinj : Set.InjOn s.invertedPageTable (Finset.Ico 0 c.maxPFN) := by
    intro g hg e he hge
    simp only [Finset.coe_Ico, Set.mem_Ico] at hg he
    exact ht.page_inj hg.1 (by omega) he.1 (by omega) hge
  have hnot : p ∉ (Finset.Ico 0 c.maxPFN).image s.invertedPageTable := by
    intro hp
    obtain ⟨g, hg, hgp⟩ := Finset.mem_image.mp hp
    rw [Finset.mem_Ico] at hg
    exact ht.page_ne hv hg.1 (by omega) hgp
  have hsub : insert p ((Finset.Ico 0 c.maxPFN).image s.invertedPageTable) ⊆ insert p A := by
    refine Finset.insert_subset_insert p fun q hq => ?_
    obtain ⟨g, hg, rfl⟩ := Finset.mem_image.mp hq
    rw [Finset.mem_Ico] at hg
    exact hall g hg.1 hg.2
  have hcard := Finset.card_le_card hsub
  rw [Finset.card_insert_of_notMem hnot, Finset.card_image_of_injOn hinj, Int.card_Ico] at hcard
  omega

/-- The victim of a replacement in the window was not loaded in it, as long as there are
no more pages than frames. -/
lemma Window.victim {repl : Replacer} (hw : Window c s A B m) (hv : (s.pte p).valid = false)
    (hn : s.nextFreeFrame = c.maxPFN) (hr : findReplacement c s.repl = .ok (f, repl))
    (h0 : 0 ≤ f) (hf : f < c.maxPFN) (hcard : (insert p A).card ≤ c.maxPFN) :
    s.invertedPageTable f ∉ B := by
  intro hB
  have hpol := hw.inv.policy
  rw [hn] at hpol
  have hothers := (findReplacement_guard hpol hw.guard hr).1 ⟨h0, by omega, hB⟩
  refine absurd (frames_card hw.inv.tables hn hv fun g hg0 hg => ?_) (not_lt_of_ge hcard)
  by_cases hgf : g = f
  · rw [hgf]
    exact hw.subset hB
  · exact hothers g hg0 hg hgf (by omega)

lemma Window.hit {repl : Replacer} (hw : Window c s A B m) (hp : c.HasPage p)
    (hv : (s.pte p).valid = true) (hr : noteHit c s.repl (s.pte p).PFN = .ok repl) :
    Window c (afterHit s p w repl) (insert p A) B m := by
  obtain ⟨h0, hf, hip⟩ := hw.inv.tables.valid p hp hv
  have ha : Access c s p w _ _ _ := .hit hv hr
  refine ⟨ha.inv hw.inv hp, hw.subset.trans (Finset.subset_insert p A), fun q hq => ?_, ?_, ?_⟩
  · rw [afterHit_pte]
    exact hw.resident q hq
  · rw [ha.missCount.2, if_pos hv, hw.missCount, add_zero]
  · rw [afterHit_repl, afterHit_nextFreeFrame, afterHit_invertedPageTable]
    refine noteHit_guard hw.inv.policy hw.guard hr h0 hf
      (fun g hg hlt => Finset.mem_insert_of_mem (hg hlt)) fun _ => ?_
    rw [hip]
    exact Finset.mem_insert_self p A

lemma Window.fresh (hw : Window c s A B m) (hv : (s.pte p).valid = false) : p ∉ B := by
  intro hp
  rw [(hw.resident p hp).2] at hv
  cases hv

/-- After a load, whether or not it replaced a page, only the guard is left to show. -/
lemma Window.load (hw : Window c s A B m) (hp : c.HasPage p) (hv : (s.pte p).valid = false)
    (ha : Access c s p w f b s') (hkept : ∀ q ∈ B, q ≠ p → (s'.pte q).valid = true)
    (hnew : (s'.pte p).valid = true)
    (hguard : PolicyGuard c s'.repl
      (fun g => g < s'.nextFreeFrame → s'.invertedPageTable g ∈ insert p A)
      (fun g => 0 ≤ g ∧ g < s'.nextFreeFrame ∧ s'.invertedPageTable g ∈ insert p B)) :
    Window c s' (insert p A) (insert p B) m := by
  refine ⟨ha.inv hw.inv hp, Finset.insert_subset_insert p hw.subset, fun q hq => ?_, ?_, hguard⟩
  · by_cases hqp : q = p
    · rw [hqp]
      exact ⟨hp, hnew⟩
    · have hqB := Finset.mem_of_mem_insert_of_ne hq hqp
      exact ⟨(hw.resident q hqB).1, hkept q hqB hqp⟩
  · rw [ha.missCount.2, if_neg (by rw [hv]; exact Bool.false_ne_true), hw.missCount,
      Finset.card_insert_of_notMem (hw.fresh hv), add_assoc]

lemma Window.fill {repl : Replacer} (hw : Window c s A B m) (hp : c.HasPage p)
    (hv : (s.pte p).valid = false) (hn : s.nextFreeFrame < c.maxPFN)
    (hr : noteFill c s.repl s.nextFreeFrame = .ok repl) :
    Window c (loadPage (countMiss s repl (s.nextFreeFrame + 1)) p.pid p.VPN w s.nextFreeFrame)
      (insert p A) (insert p B) m := by
  have ht := hw.inv.tables
  have hpA : p ∈ insert p A := Finset.mem_insert_self p A
  refine hw.load hp hv (.fill hv hn hr) (fun q hq hqp => ?_) ?_ ?_
  · rw [loadPage_pte, if_neg hqp]
    exact (hw.resident q hq).2
  · rw [loadPage_pte, if_pos rfl]
  · rw [loadPage_repl, loadPage_nextFreeFrame, loadPage_invertedPageTable, countMiss_repl,
      countMiss_nextFreeFrame, countMiss_invertedPageTable]
    refine noteFill_guard hw.inv.policy hw.guard hr ht.nonneg hn (fun g hg hlt => ?_)
      (fun g hng hlt => ?_) (fun g hg => hg.2.1) (fun g hg => ?_)
    · by_cases hgn : g = s.nextFreeFrame
      · rw [hgn, Function.update_self]
        exact hpA
      · rw [Function.update_of_ne hgn]
        exact Finset.mem_insert_of_mem (hg (by omega))
    · obtain rfl : g = s.nextFreeFrame := by omega
      rw [Function.update_self]
      exact hpA
    · by_cases hgn : g = s.nextFreeFrame
      · exact Or.inl hgn
      · obtain ⟨hg0, hlt, hgB⟩ := hg
        rw [Function.update_of_ne hgn] at hgB
        have hne := ht.page_ne hv hg0 (show g < s.nextFreeFrame by omega)
        exact Or.inr ⟨hg0, by omega, Finset.mem_of_mem_insert_of_ne hgB hne⟩

lemma Window.evict {repl : Replacer} (hw : Window c s A B m) (hp : c.HasPage p)
    (hcard : (insert p A).card ≤ c.maxPFN) (hv : (s.pte p).valid = false)
    (hn : s.nextFreeFrame = c.maxPFN) (hr : findReplacement c s.repl = .ok (f, repl))
    (h0 : 0 ≤ f) (hf : f < c.maxPFN) :
    Window c (loadPage (evictPage (countMiss s repl s.nextFreeFrame) f) p.pid p.VPN w f)
      (insert p A) (insert p B) m := by
  have hvictim := hw.victim hv hn hr h0 hf hcard
  refine hw.load hp hv (.evict hv hn hr h0 hf) (fun q hq hqp => ?_) ?_ ?_
  · rw [loadPage_pte, if_neg hqp, evictPage_pte, countMiss_invertedPageTable,
      if_neg (ne_of_mem_of_not_mem hq hvictim)]
    exact (hw.resident q hq).2
  · rw [loadPage_pte, if_pos rfl]
  · rw [loadPage_repl, loadPage_nextFreeFrame, loadPage_invertedPageTable, evictPage_repl,
      evictPage_nextFreeFrame, evictPage_invertedPageTable, countMiss_repl,
      countMiss_nextFreeFrame, countMiss_invertedPageTable]
    have hpol := hw.inv.policy
    rw [hn] at hpol
    refine (findReplacement_guard hpol hw.guard hr).2 _ _ (fun g hgf hg hlt => ?_)
      (fun _ => ?_) (fun g hgf hg => ?_)
    · rw [Function.update_of_ne hgf]
      exact Finset.mem_insert_of_mem (hg hlt)
    · rw [Function.update_self]
      exact Finset.mem_insert_self p A
    · obtain ⟨hg0, hlt, hgB⟩ := hg
      rw [Function.update_of_ne hgf] at hgB
      exact ⟨hg0, hlt, Finset.mem_of_mem_insert_of_ne hgB (hw.inv.tables.page_ne hv hg0 hlt)⟩

theorem Window.access (hw : Window c s A B m) (hp : c.HasPage p)
    (hcard : (insert p A).card ≤ c.maxPFN) (ha : Access c s p w f b s') :
    ∃ B', Window c s' (insert p A) B' m := by
  cases ha with
  | hit hv hr => exact ⟨B, hw.hit hp hv hr⟩
  | fill hv hn hr => exact ⟨insert p B, hw.fill hp hv hn hr⟩
  | evict hv hn hr h0 hf => exact ⟨insert p B, hw.evict hp hcard hv hn hr h0 hf⟩

theorem Window.served {rs : List Request} (hrs : ∀ r ∈ rs, c.InRange r) (hw : Window c s A B m)
    (hcard : (A ∪ (rs.map Request.page).toFinset).card ≤ c.maxPFN) (hs : Served c s rs t) :
    ∃ B', Window c t (A ∪ (rs.map Request.page).toFinset) B' m := by
  induction hs generalizing A B with
  | nil =>
    refine ⟨B, ?_⟩
    rw [List.map_nil, List.toFinset_nil, Finset.union_empty]
    exact hw
  | @cons _ _ _ r rs _ _ ha _ ih =>
    have hset : A ∪ ((r :: rs).map Request.page).toFinset =
        insert r.page A ∪ (rs.map Request.page).toFinset := by
      rw [List.map_cons, List.toFinset_cons, Finset.union_insert, Finset.insert_union]
    rw [hset] at hcard ⊢
    have hle : (insert r.page A).card ≤ c.maxPFN :=
      le_trans (Int.ofNat_le.mpr (Finset.card_le_card Finset.subset_union_left)) hcard
    obtain ⟨B', hw'⟩ := hw.access (hrs r List.mem_cons_self).hasPage hle ha
    exact ih (fun q hq => hrs q (List.mem_cons_of_mem _ hq)) (hw'.finish r _) hcard

/-- A window of requests that touches at most `maxPFN` pages misses at most `maxPFN` times. -/
theorem conservative (c : Config) (hz : c.replacementPolicy ≠ .ZERO)
    (hl : c.replacementPolicy = .LRU → 2 ≤ c.maxPFN) (junk : VM) (before window : List Request)
    (hbefore : ∀ r ∈ before, c.InRange r) (hwindow : ∀ r ∈ window, c.InRange r)
    (hpages : ((window.map Request.page).toFinset.card : ℤ) ≤ c.maxPFN) :
    ∃ s t, (run c (start c junk) before).2 = .ok s ∧
      (run c (start c junk) (before ++ window)).2 = .ok t ∧
      (t.stats.missCount : ℤ) ≤ s.stats.missCount + c.maxPFN := by
  have hi := inv_start c junk
  have hall : ∀ r ∈ before ++ window, c.InRange r := fun r hr =>
    (List.mem_append.mp hr).elim (hbefore r) (hwindow r)
  obtain ⟨t, ht, hrun⟩ := run_served hl hall hi
  obtain ⟨s, hs, hrunS⟩ := run_served hl hbefore hi
  obtain ⟨s', hs', hst⟩ := Served.append.mp ht
  obtain rfl := hs.unique hi hbefore hs'
  have hstart := window_empty hz (hs.inv hbefore hi)
  rw [← Finset.empty_union (window.map Request.page).toFinset] at hpages
  obtain ⟨B, hw⟩ := hstart.served hwindow hpages hst
  refine ⟨s, t, hrunS, hrun, ?_⟩
  have hle := Finset.card_le_card hw.subset
  rw [hw.missCount]
  push_cast
  omega

theorem conservative_threePages :
    ∃ s t, (run (twoFrames .CLOCK) (start (twoFrames .CLOCK) default) threePages).2 = .ok s ∧
      (run (twoFrames .CLOCK) (start (twoFrames .CLOCK) default)
        (threePages ++ [⟨0, 'R', 256, 0⟩, ⟨0, 'R', 0, 0⟩, ⟨0, 'W', 257, 68⟩])).2 = .ok t ∧
      (t.stats.missCount : ℤ) ≤ s.stats.missCount + 2 :=
  conservative (twoFrames .CLOCK) (by decide) (fun h => absurd h (by decide)) default threePages
    [⟨0, 'R', 256, 0⟩, ⟨0, 'R', 0, 0⟩, ⟨0, 'W', 257, 68⟩] (by decide) (by decide) (by decide)

end OsProjects.Paging
