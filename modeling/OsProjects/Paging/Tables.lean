import OsProjects.Paging.MMU
import OsProjects.Paging.PolicySpec

/-!
# Page table and inverted page table

`Access` lists the three things the MMU can do for a page that exists: a hit, a
fault that takes a free frame, a fault that replaces a page.  `Inv` is kept by
all three, so it holds after every sequence of requests.
-/

namespace OsProjects.Paging

/-- A page is named as in the inverted page table. -/
def Config.HasPage (c : Config) (p : IPTE) : Prop :=
  0 ≤ p.pid ∧ p.pid < c.maxPID ∧ 0 ≤ p.VPN ∧ p.VPN < c.maxVPN

def VM.pte (s : VM) (p : IPTE) : PTE := s.pageTable p.pid p.VPN

def VM.swap (s : VM) (p : IPTE) : UInt8 := s.swapDisk p.pid p.VPN

lemma IPTE.eq_iff {p q : IPTE} : p = q ↔ p.pid = q.pid ∧ p.VPN = q.VPN := by
  cases p
  cases q
  simp

/-! ## The fields after each operation -/

lemma writePTE_pte (s : VM) (q : IPTE) (e : PTE) (p : IPTE) :
    (writePTE s q.pid q.VPN e).pte p = if p = q then e else s.pte p := by
  simp only [VM.pte, writePTE, IPTE.eq_iff]

lemma swapOut_swap (s : VM) (q : IPTE) (f : ℤ) (p : IPTE) :
    (swapOut s q.pid q.VPN f).swap p = if p = q then s.physicalMem f else s.swap p := by
  simp only [VM.swap, swapOut, IPTE.eq_iff]

lemma evictPage_of_dirty {s : VM} {f : ℤ} {q : IPTE} (hq : s.invertedPageTable f = q)
    (hd : (s.pte q).dirty = true) :
    evictPage s f = writePTE (swapOut s q.pid q.VPN f) q.pid q.VPN
      { s.pte q with valid := false, dirty := false } := by
  subst hq
  exact if_pos hd

lemma evictPage_of_clean {s : VM} {f : ℤ} {q : IPTE} (hq : s.invertedPageTable f = q)
    (hd : (s.pte q).dirty = false) :
    evictPage s f = writePTE s q.pid q.VPN { s.pte q with valid := false, dirty := false } := by
  subst hq
  have h : { s.pte (s.invertedPageTable f) with valid := false, dirty := false } =
      { s.pte (s.invertedPageTable f) with valid := false } := by
    rw [PTE.mk.injEq]
    exact ⟨rfl, rfl, hd.symm⟩
  rw [h]
  exact if_neg (show ¬ (s.pte (s.invertedPageTable f)).dirty = true by simp [hd])

lemma evictPage_pte (s : VM) (f : ℤ) (p : IPTE) :
    (evictPage s f).pte p =
      if p = s.invertedPageTable f then { s.pte p with valid := false, dirty := false }
      else s.pte p := by
  cases hd : (s.pte (s.invertedPageTable f)).dirty with
  | true =>
    rw [evictPage_of_dirty rfl hd, writePTE_pte]
    split_ifs with hp
    · rw [hp]
    · rfl
  | false =>
    rw [evictPage_of_clean rfl hd, writePTE_pte]
    split_ifs with hp
    · rw [hp]
    · rfl

lemma evictPage_swap (s : VM) (f : ℤ) (p : IPTE) :
    (evictPage s f).swap p =
      if p = s.invertedPageTable f ∧ (s.pte p).dirty = true then s.physicalMem f
      else s.swap p := by
  cases hd : (s.pte (s.invertedPageTable f)).dirty with
  | true =>
    rw [evictPage_of_dirty rfl hd]
    refine (swapOut_swap s (s.invertedPageTable f) f p).trans ?_
    by_cases hp : p = s.invertedPageTable f
    · rw [if_pos hp, if_pos ⟨hp, by rw [hp, hd]⟩]
    · rw [if_neg hp, if_neg fun h => hp h.1]
  | false =>
    rw [evictPage_of_clean rfl hd, if_neg]
    · rfl
    · rintro ⟨rfl, h⟩
      rw [hd] at h
      exact Bool.false_ne_true h

/-- Evicting touches the page table, the swap disk and `swapWrite` only. -/
lemma evictPage_frame (s : VM) (f : ℤ) : ∃ pt sd n, evictPage s f =
    { s with pageTable := pt, swapDisk := sd, stats := { s.stats with swapWrite := n } } := by
  cases hd : (s.pte (s.invertedPageTable f)).dirty with
  | true => exact ⟨_, _, _, evictPage_of_dirty rfl hd⟩
  | false => exact ⟨_, _, _, evictPage_of_clean rfl hd⟩

@[simp] lemma evictPage_invertedPageTable (s : VM) (f : ℤ) :
    (evictPage s f).invertedPageTable = s.invertedPageTable := by
  obtain ⟨pt, sd, n, h⟩ := evictPage_frame s f
  rw [h]

@[simp] lemma evictPage_nextFreeFrame (s : VM) (f : ℤ) :
    (evictPage s f).nextFreeFrame = s.nextFreeFrame := by
  obtain ⟨pt, sd, n, h⟩ := evictPage_frame s f
  rw [h]

@[simp] lemma evictPage_physicalMem (s : VM) (f : ℤ) :
    (evictPage s f).physicalMem = s.physicalMem := by
  obtain ⟨pt, sd, n, h⟩ := evictPage_frame s f
  rw [h]

@[simp] lemma evictPage_repl (s : VM) (f : ℤ) : (evictPage s f).repl = s.repl := by
  obtain ⟨pt, sd, n, h⟩ := evictPage_frame s f
  rw [h]

lemma loadPage_pte (s : VM) (q : IPTE) (w : Char) (f : ℤ) (p : IPTE) :
    (loadPage s q.pid q.VPN w f).pte p =
      if p = q then { PFN := f, valid := true, dirty := decide (w = 'W') } else s.pte p :=
  writePTE_pte s q _ p

@[simp] lemma loadPage_swap (s : VM) (q : IPTE) (w : Char) (f : ℤ) (p : IPTE) :
    (loadPage s q.pid q.VPN w f).swap p = s.swap p := rfl

@[simp] lemma loadPage_invertedPageTable (s : VM) (q : IPTE) (w : Char) (f : ℤ) :
    (loadPage s q.pid q.VPN w f).invertedPageTable =
      Function.update s.invertedPageTable f q := rfl

@[simp] lemma loadPage_physicalMem (s : VM) (q : IPTE) (w : Char) (f : ℤ) :
    (loadPage s q.pid q.VPN w f).physicalMem = Function.update s.physicalMem f (s.swap q) := rfl

@[simp] lemma loadPage_nextFreeFrame (s : VM) (q : IPTE) (w : Char) (f : ℤ) :
    (loadPage s q.pid q.VPN w f).nextFreeFrame = s.nextFreeFrame := rfl

@[simp] lemma loadPage_repl (s : VM) (q : IPTE) (w : Char) (f : ℤ) :
    (loadPage s q.pid q.VPN w f).repl = s.repl := rfl

/-! ## What the MMU can do -/

/-- The machine after a hit of `p`. -/
def afterHit (s : VM) (p : IPTE) (w : Char) (repl : Replacer) : VM :=
  let s' := if w = 'W' then writePTE s p.pid p.VPN { s.pte p with dirty := true } else s
  { s' with repl := repl, stats := { s.stats with hitCount := s.stats.hitCount + 1 } }

@[simp] lemma afterHit_repl (s : VM) (p : IPTE) (w : Char) (repl : Replacer) :
    (afterHit s p w repl).repl = repl := by
  unfold afterHit
  split_ifs <;> rfl

@[simp] lemma afterHit_nextFreeFrame (s : VM) (p : IPTE) (w : Char) (repl : Replacer) :
    (afterHit s p w repl).nextFreeFrame = s.nextFreeFrame := by
  unfold afterHit
  split_ifs <;> rfl

@[simp] lemma afterHit_invertedPageTable (s : VM) (p : IPTE) (w : Char) (repl : Replacer) :
    (afterHit s p w repl).invertedPageTable = s.invertedPageTable := by
  unfold afterHit
  split_ifs <;> rfl

@[simp] lemma afterHit_physicalMem (s : VM) (p : IPTE) (w : Char) (repl : Replacer) :
    (afterHit s p w repl).physicalMem = s.physicalMem := by
  unfold afterHit
  split_ifs <;> rfl

@[simp] lemma afterHit_swap (s : VM) (p : IPTE) (w : Char) (repl : Replacer) (q : IPTE) :
    (afterHit s p w repl).swap q = s.swap q := by
  unfold afterHit
  split_ifs <;> rfl

/-- A hit changes the dirty bit of the page it hits, at most. -/
lemma afterHit_pte (s : VM) (p : IPTE) (w : Char) (repl : Replacer) (q : IPTE) :
    (afterHit s p w repl).pte q =
      { s.pte q with dirty := (s.pte q).dirty || (decide (q = p) && decide (w = 'W')) } := by
  by_cases hw : w = 'W'
  · have h : (afterHit s p w repl).pte q =
        (writePTE s p.pid p.VPN { s.pte p with dirty := true }).pte q := by
      rw [afterHit, if_pos hw]
      rfl
    rw [h, writePTE_pte]
    by_cases hq : q = p
    · simp [hq, hw]
    · simp [hq]
  · have h : (afterHit s p w repl).pte q = s.pte q := by
      rw [afterHit, if_neg hw]
      rfl
    rw [h]
    simp [hw]

/-- The machine after counting a miss and setting the policies' data. -/
def countMiss (s : VM) (repl : Replacer) (next : ℤ) : VM :=
  { s with
    repl := repl
    nextFreeFrame := next
    stats := { s.stats with missCount := s.stats.missCount + 1 } }

@[simp] lemma countMiss_pte (s : VM) (repl : Replacer) (n : ℤ) (p : IPTE) :
    (countMiss s repl n).pte p = s.pte p := rfl

@[simp] lemma countMiss_swap (s : VM) (repl : Replacer) (n : ℤ) (p : IPTE) :
    (countMiss s repl n).swap p = s.swap p := rfl

@[simp] lemma countMiss_invertedPageTable (s : VM) (repl : Replacer) (n : ℤ) :
    (countMiss s repl n).invertedPageTable = s.invertedPageTable := rfl

@[simp] lemma countMiss_physicalMem (s : VM) (repl : Replacer) (n : ℤ) :
    (countMiss s repl n).physicalMem = s.physicalMem := rfl

@[simp] lemma countMiss_nextFreeFrame (s : VM) (repl : Replacer) (n : ℤ) :
    (countMiss s repl n).nextFreeFrame = n := rfl

@[simp] lemma countMiss_repl (s : VM) (repl : Replacer) (n : ℤ) :
    (countMiss s repl n).repl = repl := rfl

/-- The accesses of the page `p`: the frame it is found or put in, the flag `*hit`,
and the machine afterwards. -/
inductive Access (c : Config) (s : VM) (p : IPTE) (w : Char) : ℤ → Bool → VM → Prop
  | hit {repl : Replacer} (hv : (s.pte p).valid = true)
      (hr : noteHit c s.repl (s.pte p).PFN = .ok repl) :
      Access c s p w (s.pte p).PFN true (afterHit s p w repl)
  | fill {repl : Replacer} (hv : (s.pte p).valid = false) (hn : s.nextFreeFrame < c.maxPFN)
      (hr : noteFill c s.repl s.nextFreeFrame = .ok repl) :
      Access c s p w s.nextFreeFrame false
        (loadPage (countMiss s repl (s.nextFreeFrame + 1)) p.pid p.VPN w s.nextFreeFrame)
  | evict {f : ℤ} {repl : Replacer} (hv : (s.pte p).valid = false)
      (hn : s.nextFreeFrame = c.maxPFN) (hr : findReplacement c s.repl = .ok (f, repl))
      (h0 : 0 ≤ f) (hf : f < c.maxPFN) :
      Access c s p w f false
        (loadPage (evictPage (countMiss s repl s.nextFreeFrame) f) p.pid p.VPN w f)

/-- The two tables are inverse to each other. -/
structure Tables (c : Config) (s : VM) : Prop where
  nonneg : 0 ≤ s.nextFreeFrame
  le : s.nextFreeFrame ≤ c.maxPFN
  valid : ∀ p, c.HasPage p → (s.pte p).valid = true →
    0 ≤ (s.pte p).PFN ∧ (s.pte p).PFN < s.nextFreeFrame ∧ s.invertedPageTable (s.pte p).PFN = p
  frame : ∀ f, 0 ≤ f → f < s.nextFreeFrame →
    c.HasPage (s.invertedPageTable f) ∧ (s.pte (s.invertedPageTable f)).valid = true ∧
      (s.pte (s.invertedPageTable f)).PFN = f

/-- The pages in the frames are not the one that a fault loads. -/
lemma Tables.page_ne {c : Config} {s : VM} {p : IPTE} {f : ℤ} (ht : Tables c s)
    (hv : (s.pte p).valid = false) (h0 : 0 ≤ f) (hf : f < s.nextFreeFrame) :
    s.invertedPageTable f ≠ p := by
  intro heq
  have hvalid := (ht.frame f h0 hf).2.1
  rw [heq, hv] at hvalid
  cases hvalid

/-- Two frames never hold one page. -/
lemma Tables.page_inj {c : Config} {s : VM} {f g : ℤ} (ht : Tables c s) (h0 : 0 ≤ f)
    (hf : f < s.nextFreeFrame) (hg0 : 0 ≤ g) (hg : g < s.nextFreeFrame)
    (h : s.invertedPageTable f = s.invertedPageTable g) : f = g := by
  rw [← (ht.frame f h0 hf).2.2, h, (ht.frame g hg0 hg).2.2]

/-- No frame is free when all of them are in use. -/
lemma Tables.getFreeframe_full {c : Config} {s : VM} (ht : Tables c s) :
    (getFreeframe c s).1 = -1 ↔ s.nextFreeFrame = c.maxPFN := by
  have h0 := ht.nonneg
  have hle := ht.le
  unfold getFreeframe
  split_ifs with hn
  · exact ⟨fun _ => by omega, fun _ => rfl⟩
  · change s.nextFreeFrame = -1 ↔ _
    omega

/-- The invariant of the machine. -/
structure Inv (c : Config) (s : VM) : Prop where
  tables : Tables c s
  policy : PolicyInv c s.nextFreeFrame s.repl

/-! ## Every access keeps the invariant -/

lemma Tables.hit {c : Config} {s : VM} {p : IPTE} {w : Char} {repl : Replacer}
    (ht : Tables c s) : Tables c (afterHit s p w repl) := by
  constructor
  · rw [afterHit_nextFreeFrame]
    exact ht.nonneg
  · rw [afterHit_nextFreeFrame]
    exact ht.le
  · intro q hq hqv
    rw [afterHit_pte] at hqv ⊢
    rw [afterHit_nextFreeFrame, afterHit_invertedPageTable]
    exact ht.valid q hq hqv
  · intro f h0 hf
    rw [afterHit_nextFreeFrame] at hf
    rw [afterHit_invertedPageTable, afterHit_pte]
    exact ht.frame f h0 hf

lemma Tables.fill {c : Config} {s : VM} {p : IPTE} {w : Char} {repl : Replacer} (ht : Tables c s)
    (hp : c.HasPage p) (hv : (s.pte p).valid = false) (hn : s.nextFreeFrame < c.maxPFN) :
    Tables c
      (loadPage (countMiss s repl (s.nextFreeFrame + 1)) p.pid p.VPN w s.nextFreeFrame) := by
  have h0 := ht.nonneg
  constructor
  · rw [loadPage_nextFreeFrame, countMiss_nextFreeFrame]
    omega
  · rw [loadPage_nextFreeFrame, countMiss_nextFreeFrame]
    omega
  · intro q hq hqv
    rw [loadPage_pte] at hqv ⊢
    rw [loadPage_nextFreeFrame, countMiss_nextFreeFrame, loadPage_invertedPageTable]
    by_cases hqp : q = p
    · rw [if_pos hqp]
      exact ⟨h0, by simp, by rw [Function.update_self, hqp]⟩
    · rw [if_neg hqp, countMiss_pte] at hqv ⊢
      obtain ⟨h1, h2, h3⟩ := ht.valid q hq hqv
      refine ⟨h1, by omega, ?_⟩
      rw [Function.update_of_ne (by omega)]
      exact h3
  · intro f hf0 hf
    rw [loadPage_nextFreeFrame, countMiss_nextFreeFrame] at hf
    rw [loadPage_invertedPageTable, countMiss_invertedPageTable]
    by_cases hfn : f = s.nextFreeFrame
    · rw [hfn, Function.update_self, loadPage_pte, if_pos rfl]
      exact ⟨hp, rfl, rfl⟩
    · obtain ⟨h1, h2, h3⟩ := ht.frame f hf0 (by omega)
      rw [Function.update_of_ne hfn, loadPage_pte,
        if_neg (ht.page_ne hv hf0 (by omega)), countMiss_pte]
      exact ⟨h1, h2, h3⟩

lemma Tables.evict {c : Config} {s : VM} {p : IPTE} {w : Char} {repl : Replacer} {f : ℤ}
    (ht : Tables c s) (hp : c.HasPage p) (hv : (s.pte p).valid = false)
    (hn : s.nextFreeFrame = c.maxPFN) (h0 : 0 ≤ f) (hf : f < c.maxPFN) :
    Tables c (loadPage (evictPage (countMiss s repl s.nextFreeFrame) f) p.pid p.VPN w f) := by
  have hnext : (loadPage (evictPage (countMiss s repl s.nextFreeFrame) f) p.pid p.VPN w
      f).nextFreeFrame = s.nextFreeFrame := by
    rw [loadPage_nextFreeFrame, evictPage_nextFreeFrame, countMiss_nextFreeFrame]
  -- away from the victim and the new page nothing changes
  have hpte : ∀ q, q ≠ p → q ≠ s.invertedPageTable f →
      (loadPage (evictPage (countMiss s repl s.nextFreeFrame) f) p.pid p.VPN w f).pte q =
        s.pte q := by
    intro q hq hqv
    rw [loadPage_pte, if_neg hq, evictPage_pte, countMiss_invertedPageTable, if_neg hqv,
      countMiss_pte]
  have hipt : (loadPage (evictPage (countMiss s repl s.nextFreeFrame) f) p.pid p.VPN w
      f).invertedPageTable = Function.update s.invertedPageTable f p := by
    rw [loadPage_invertedPageTable, evictPage_invertedPageTable, countMiss_invertedPageTable]
  constructor
  · rw [hnext]
    exact ht.nonneg
  · rw [hnext]
    exact ht.le
  · intro q hq hqv
    rw [hnext, hipt]
    by_cases hqp : q = p
    · rw [hqp, loadPage_pte, if_pos rfl]
      exact ⟨h0, by simpa [hn] using hf, Function.update_self ..⟩
    · have hqi : q ≠ s.invertedPageTable f := by
        intro hqi
        rw [loadPage_pte, if_neg hqp, evictPage_pte, countMiss_invertedPageTable,
          if_pos hqi] at hqv
        exact Bool.false_ne_true hqv
      rw [hpte q hqp hqi] at hqv ⊢
      obtain ⟨h1, h2, h3⟩ := ht.valid q hq hqv
      refine ⟨h1, h2, ?_⟩
      rw [Function.update_of_ne fun he => hqi (by rw [← he, h3])]
      exact h3
  · intro g hg0 hg
    rw [hnext] at hg
    rw [hipt]
    by_cases hgf : g = f
    · rw [hgf, Function.update_self, loadPage_pte, if_pos rfl]
      exact ⟨hp, rfl, rfl⟩
    · obtain ⟨h1, h2, h3⟩ := ht.frame g hg0 hg
      have hni : s.invertedPageTable g ≠ s.invertedPageTable f := fun he =>
        hgf (ht.page_inj hg0 hg h0 (by omega) he)
      rw [Function.update_of_ne hgf, hpte _ (ht.page_ne hv hg0 hg) hni]
      exact ⟨h1, h2, h3⟩

theorem Access.tables {c : Config} {s s' : VM} {p : IPTE} {w : Char} {f : ℤ} {b : Bool}
    (ht : Tables c s) (hp : c.HasPage p) (ha : Access c s p w f b s') : Tables c s' := by
  cases ha with
  | hit hv hr => exact ht.hit
  | fill hv hn hr => exact ht.fill hp hv hn
  | evict hv hn hr h0 hf => exact ht.evict hp hv hn h0 hf

theorem Access.inv {c : Config} {s s' : VM} {p : IPTE} {w : Char} {f : ℤ} {b : Bool}
    (hs : Inv c s) (hp : c.HasPage p) (ha : Access c s p w f b s') : Inv c s' := by
  refine ⟨ha.tables hs.tables hp, ?_⟩
  cases ha with
  | hit hv hr =>
    obtain ⟨h0, hf, -⟩ := hs.tables.valid p hp hv
    obtain ⟨r', hr', hinv⟩ := noteHit_inv hs.policy h0 hf
    rw [afterHit_repl, afterHit_nextFreeFrame, Except.ok.inj (hr.symm.trans hr')]
    exact hinv
  | fill hv hn hr =>
    obtain ⟨r', hr', hinv⟩ := noteFill_inv hs.policy hs.tables.nonneg hn
    rw [loadPage_repl, loadPage_nextFreeFrame, Except.ok.inj (hr.symm.trans hr')]
    exact hinv
  | evict hv hn hr h0 hf =>
    rw [loadPage_repl, loadPage_nextFreeFrame, evictPage_repl, evictPage_nextFreeFrame]
    have hpol := hs.policy
    rw [hn] at hpol
    rcases findReplacement_inv hpol with ⟨g, r', hr', -, -, hinv⟩ | ⟨-, -, herr⟩
    · obtain ⟨-, rfl⟩ := Prod.mk.inj (Except.ok.inj (hr.symm.trans hr'))
      rw [countMiss_repl, countMiss_nextFreeFrame, hn]
      exact hinv
    · rw [hr] at herr
      cases herr

/-- The frame of an access is a frame, and holds the accessed page afterwards. -/
theorem Access.resident {c : Config} {s s' : VM} {p : IPTE} {w : Char} {f : ℤ} {b : Bool}
    (ht : Tables c s) (hp : c.HasPage p) (ha : Access c s p w f b s') :
    0 ≤ f ∧ f < c.maxPFN ∧ s'.pte p = ⟨f, true, (s'.pte p).dirty⟩ ∧ s'.invertedPageTable f = p := by
  have hle := ht.le
  have h0 := ht.nonneg
  cases ha with
  | hit hv hr =>
    obtain ⟨h1, h2, h3⟩ := ht.valid p hp hv
    refine ⟨h1, by omega, ?_, ?_⟩
    · rw [afterHit_pte, ← hv]
    · rw [afterHit_invertedPageTable, h3]
  | fill hv hn hr =>
    refine ⟨h0, hn, ?_, Function.update_self ..⟩
    rw [loadPage_pte, if_pos rfl]
  | evict hv hn hr hf0 hf =>
    refine ⟨hf0, hf, ?_, Function.update_self ..⟩
    rw [loadPage_pte, if_pos rfl]

/-- The MMU can serve every page, except LRU with a single frame that has to replace. -/
theorem exists_access {c : Config} {s : VM} {p : IPTE} (hs : Inv c s) (hp : c.HasPage p)
    (w : Char) :
    (∃ f b s', Access c s p w f b s') ∨
    (c.replacementPolicy = .LRU ∧ c.maxPFN = 1 ∧ (s.pte p).valid = false ∧
      s.nextFreeFrame = c.maxPFN ∧ findReplacement c s.repl = .error .nullPointer) := by
  cases hv : (s.pte p).valid with
  | true =>
    obtain ⟨h0, hf, -⟩ := hs.tables.valid p hp hv
    obtain ⟨r', hr', -⟩ := noteHit_inv hs.policy h0 hf
    exact Or.inl ⟨_, _, _, .hit hv hr'⟩
  | false =>
    rcases lt_or_eq_of_le hs.tables.le with hn | hn
    · obtain ⟨r', hr', -⟩ := noteFill_inv hs.policy hs.tables.nonneg hn
      exact Or.inl ⟨_, _, _, .fill hv hn hr'⟩
    · have hpol := hs.policy
      rw [hn] at hpol
      rcases findReplacement_inv hpol with ⟨f, r', hr', h0, hf, -⟩ | ⟨hl, h1, herr⟩
      · exact Or.inl ⟨_, _, _, .evict hv hn hr' h0 hf⟩
      · exact Or.inr ⟨hl, h1, rfl, hn, herr⟩

end OsProjects.Paging
