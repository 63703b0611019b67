import OsProjects.Paging.Observer
import OsProjects.Library.SecondChance

/-!
# CLOCK is second-chance replacement

The frames in use, in the order in which the hand comes to them, are the queue of
the reference algorithm, and the reference bits are its bits.  While frames are
free the hand rests at frame 0, so this order is the order of the loads.
-/

namespace OsProjects.Paging
open SecondChance

variable {c : Config} {s s' : VM} {r : Request} {p : IPTE} {w : Char} {f n t : ℤ} {b : Bool}
  {m : Machine ℤ IPTE} {bit : ℤ → Bool} {ref ref' : ℤ → ℤ}

/-- The frames below `n`. -/
def frames (n : ℤ) : List ℤ := (List.range n.toNat).map Int.ofNat

lemma mem_frames : f ∈ frames n ↔ 0 ≤ f ∧ f < n := by
  rw [frames, List.mem_map]
  constructor
  · rintro ⟨i, hi, rfl⟩
    have hlt := List.mem_range.mp hi
    refine ⟨Int.natCast_nonneg i, ?_⟩
    change (i : ℤ) < n
    omega
  · rintro ⟨h0, hn⟩
    exact ⟨f.toNat, List.mem_range.mpr (by omega), Int.toNat_of_nonneg h0⟩

lemma length_frames_below : (frames n).length = n.toNat := by
  rw [frames, List.length_map, List.length_range]

lemma frames_succ (h0 : 0 ≤ n) : frames (n + 1) = frames n ++ [n] := by
  rw [frames, frames, Int.toNat_add h0 zero_le_one, show (1 : ℤ).toNat = 1 from rfl,
    List.range_succ, List.map_append, List.map_singleton]
  congr 2
  exact Int.toNat_of_nonneg h0

lemma drop_frames {k : ℤ} (h0 : 0 ≤ n) (hk : n < k) :
    (frames k).drop n.toNat = n :: (frames k).drop (n + 1).toNat := by
  have hlt : n.toNat < (frames k).length := by
    rw [length_frames_below]
    omega
  rw [List.drop_eq_getElem_cons hlt, Int.toNat_add h0 zero_le_one]
  congr 1
  simp only [frames, List.getElem_map, List.getElem_range]
  exact Int.toNat_of_nonneg h0

/-- The frames below `n` in the order in which a hand at `t` meets them. -/
def fromHand (n t : ℤ) : List ℤ := (frames n).rotate t.toNat

lemma mem_fromHand : f ∈ fromHand n t ↔ 0 ≤ f ∧ f < n := by
  rw [fromHand, List.mem_rotate, mem_frames]

lemma fromHand_zero : fromHand n 0 = frames n := List.rotate_zero _

/-- The hand passes the frame it points to, which thereby becomes the last one. -/
lemma fromHand_succ (h0 : 0 ≤ t) (hn : t < n) :
    ∃ q, fromHand n t = t :: q ∧ fromHand n ((t + 1) % n) = q ++ [t] := by
  have hlen : (frames n).length = n.toNat := length_frames_below
  have hhead : fromHand n t = t :: ((frames n).drop (t + 1).toNat ++ (frames n).take t.toNat) := by
    rw [fromHand, List.rotate_eq_drop_append_take (by omega), drop_frames h0 hn, List.cons_append]
  refine ⟨_, hhead, ?_⟩
  have hmod : ((t + 1) % n).toNat = (t.toNat + 1) % (frames n).length := by
    rw [hlen, Int.toNat_emod (by omega) (by omega), Int.toNat_add h0 zero_le_one]
    rfl
  rw [fromHand, hmod, List.rotate_mod, ← List.rotate_rotate]
  change (fromHand n t).rotate 1 = _
  rw [hhead, List.rotate_cons_succ, List.rotate_zero]

/-! ## The bits -/

/-- On the frames below `n` the bits of the queue are those of `clock_ref`. -/
def SameBits (n : ℤ) (bit : ℤ → Bool) (ref : ℤ → ℤ) : Prop :=
  ∀ f, 0 ≤ f → f < n → (bit f = true ↔ ref f = 1)

lemma SameBits.update (h : SameBits n bit ref) (f : ℤ) {b : Bool} {v : ℤ} (hv : b = true ↔ v = 1) :
    SameBits n (Function.update bit f b) (Function.update ref f v) := by
  intro g h0 hg
  by_cases hgf : g = f
  · rw [hgf, Function.update_self, Function.update_self]
    exact hv
  · rw [Function.update_of_ne hgf, Function.update_of_ne hgf]
    exact h g h0 hg

/-- The loop of `clock` evicts what the queue evicts. -/
lemma clockLoop_evict {fuel : ℕ} {t' : ℤ} (h0 : 0 ≤ t) (ht : t < c.maxPFN)
    (hbits : ∀ g, ref g = 0 ∨ ref g = 1) (hbit : SameBits c.maxPFN bit ref)
    (hrun : clockLoop c fuel ref t = .ok (f, ref', t')) :
    ∃ bit', evict bit (fromHand c.maxPFN t) = some (f, fromHand c.maxPFN t', bit') ∧
      SameBits c.maxPFN bit' ref' := by
  induction fuel generalizing ref t bit with
  | zero => cases hrun
  | succ fuel ih =>
    obtain ⟨q, hq, hq'⟩ := fromHand_succ h0 ht
    rw [hq]
    rcases hbits t with h | h
    · have hclear : bit t = false := by
        rw [← Bool.not_eq_true, hbit t h0 ht, h]
        exact zero_ne_one
      rw [clockLoop, if_pos h] at hrun
      cases hrun
      rw [evict_of_clear hclear, hq']
      exact ⟨_, rfl, hbit.update f (by simp)⟩
    · rw [clockLoop, if_neg (by omega), if_pos h] at hrun
      rw [evict_of_set ((hbit t h0 ht).mpr h), ← hq']
      exact ih (Hand.succ_mod_nonneg (by omega)) (Hand.succ_mod_lt (by omega))
        (bits_update hbits t (Or.inl rfl)) (hbit.update t (by simp)) hrun

/-! ## The simulation -/

/-- The state of the reference algorithm beside that of the simulator. -/
structure ClockSim (c : Config) (s : VM) (m : Machine ℤ IPTE) : Prop where
  free : m.free = (frames c.maxPFN).drop s.nextFreeFrame.toNat
  queue : m.queue = fromHand s.nextFreeFrame s.repl.clockTail
  bit : ∀ ref, s.repl.clockRef = some ref → SameBits s.nextFreeFrame m.bit ref
  page : ∀ f, 0 ≤ f → f < s.nextFreeFrame → m.page f = some (s.invertedPageTable f)

lemma clockSim_start (c : Config) (junk : VM) :
    ClockSim c (start c junk) (Machine.fresh (frames c.maxPFN)) := by
  constructor
  · rfl
  · rfl
  · intro ref href
    cases href
  · intro f h0 hf
    exact absurd (show f < 0 from hf) (by omega)

lemma ClockSim.mem_queue (h : ClockSim c s m) : f ∈ m.queue ↔ 0 ≤ f ∧ f < s.nextFreeFrame := by
  rw [h.queue, mem_fromHand]

/-- A page that is not valid is in no frame of the queue. -/
lemma ClockSim.miss (h : ClockSim c s m) (ht : Tables c s) (hv : (s.pte p).valid = false) :
    ∀ g ∈ m.queue, m.page g ≠ some p := by
  intro g hg hgp
  obtain ⟨h0, hn⟩ := h.mem_queue.mp hg
  rw [h.page g h0 hn, Option.some.injEq] at hgp
  exact ht.page_ne hv h0 hn hgp

/-- The hit of a page sets the bit of its frame. -/
lemma ClockSim.hit {repl : Replacer} (hpol : c.replacementPolicy = .CLOCK) (hi : Inv c s)
    (h : ClockSim c s m) (hp : c.HasPage p) (hv : (s.pte p).valid = true)
    (hr : noteHit c s.repl (s.pte p).PFN = .ok repl) :
    ClockSim c (afterHit s p w repl) (m.access p) ∧ (m.access p).victims = m.victims := by
  obtain ⟨h0, hn, hip⟩ := hi.tables.valid p hp hv
  have haccess : m.access p = m.touch (s.pte p).PFN := by
    apply access_of_hit (h.mem_queue.mpr ⟨h0, hn⟩)
    · rw [h.page _ h0 hn, hip]
    · intro g hg hgp
      obtain ⟨hg0, hgn⟩ := h.mem_queue.mp hg
      rw [h.page g hg0 hgn, Option.some.injEq] at hgp
      rw [← hgp, (hi.tables.frame g hg0 hgn).2.2]
  rw [haccess]
  refine ⟨?_, rfl⟩
  cases href : s.repl.clockRef with
  | none =>
    simp only [noteHit, hpol, href] at hr
    cases hr
  | some ref =>
    simp only [noteHit, hpol, href, Except.ok.injEq] at hr
    subst hr
    constructor
    · rw [afterHit_nextFreeFrame]
      exact h.free
    · rw [afterHit_nextFreeFrame, afterHit_repl]
      exact h.queue
    · intro ref' href'
      rw [afterHit_repl] at href'
      obtain rfl := Option.some.inj href'
      rw [afterHit_nextFreeFrame]
      exact (h.bit ref href).update _ (by simp)
    · intro f
      rw [afterHit_nextFreeFrame, afterHit_invertedPageTable]
      exact h.page f

/-- A load puts its frame at the back, and every bit is set by then. -/
lemma ClockSim.fill {repl : Replacer} (hpol : c.replacementPolicy = .CLOCK) (hi : Inv c s)
    (h : ClockSim c s m) (hv : (s.pte p).valid = false) (hn : s.nextFreeFrame < c.maxPFN)
    (hr : noteFill c s.repl s.nextFreeFrame = .ok repl) :
    ClockSim c (loadPage (countMiss s repl (s.nextFreeFrame + 1)) p.pid p.VPN w s.nextFreeFrame)
      (m.access p) ∧ (m.access p).victims = m.victims := by
  have h0 := hi.tables.nonneg
  have hpolicy := hi.policy
  simp only [PolicyInv, hpol] at hpolicy
  rw [access_of_free (h.miss hi.tables hv) (h.free.trans (drop_frames h0 hn))]
  refine ⟨?_, rfl⟩
  -- the bits are allocated at the first fault; until the frames are full the hand stays at 0
  have hset : s.repl.clockTail = 0 ∧ repl.clockTail = 0 ∧ ∃ ref, repl.clockRef = some ref ∧
      ref s.nextFreeFrame = 1 ∧ SameBits s.nextFreeFrame m.bit ref := by
    cases href : s.repl.clockRef with
    | none =>
      rw [href] at hpolicy
      simp only [noteFill, hpol, href, Except.ok.injEq] at hr
      subst hr
      refine ⟨hpolicy.2.2.2, hpolicy.2.2.2, _, rfl, rfl, fun f hf0 hf => ?_⟩
      have := hpolicy.2.2.1
      omega
    | some ref =>
      rw [href] at hpolicy
      simp only [noteFill, hpol, href, Except.ok.injEq] at hr
      subst hr
      obtain ⟨htail, hones⟩ := hpolicy.2.2.2 hn
      exact ⟨htail, htail, ref, href, hones _, h.bit ref href⟩
  obtain ⟨htail, htail', ref, href, hone, hsame⟩ := hset
  constructor
  · rfl
  · rw [loadPage_nextFreeFrame, countMiss_nextFreeFrame, loadPage_repl, countMiss_repl, htail',
      fromHand_zero, frames_succ h0]
    change m.queue ++ [s.nextFreeFrame] = _
    rw [h.queue, htail, fromHand_zero]
  · intro ref' href'
    rw [loadPage_repl, countMiss_repl, href, Option.some.injEq] at href'
    subst href'
    rw [loadPage_nextFreeFrame, countMiss_nextFreeFrame]
    intro f hf0 hf
    change Function.update m.bit s.nextFreeFrame true f = true ↔ _
    by_cases hfn : f = s.nextFreeFrame
    · rw [hfn, Function.update_self, hone]
      exact ⟨fun _ => rfl, fun _ => rfl⟩
    · rw [Function.update_of_ne hfn]
      exact hsame f hf0 (by omega)
  · intro f hf0 hf
    rw [loadPage_nextFreeFrame, countMiss_nextFreeFrame] at hf
    rw [loadPage_invertedPageTable, countMiss_invertedPageTable]
    change Function.update m.page s.nextFreeFrame (some p) f = _
    by_cases hfn : f = s.nextFreeFrame
    · rw [hfn, Function.update_self, Function.update_self]
    · rw [Function.update_of_ne hfn, Function.update_of_ne hfn]
      exact h.page f hf0 (by omega)

/-- The frame found by the hand is the victim of the queue. -/
lemma ClockSim.evict {repl : Replacer} (hpol : c.replacementPolicy = .CLOCK) (hi : Inv c s)
    (h : ClockSim c s m) (hv : (s.pte p).valid = false) (hn : s.nextFreeFrame = c.maxPFN)
    (hr : findReplacement c s.repl = .ok (f, repl)) :
    ClockSim c (loadPage (evictPage (countMiss s repl s.nextFreeFrame) f) p.pid p.VPN w f)
      (m.access p) ∧ (m.access p).victims = m.victims ++ [f] := by
  have hpolicy := hi.policy
  simp only [PolicyInv, hpol] at hpolicy
  obtain ⟨ht0, ht, hbits⟩ := hpolicy
  obtain ⟨ref, ref', t', href, hloop, rfl⟩ := findReplacement_clock hpol hr
  rw [href] at hbits
  have hsame := h.bit ref href
  rw [hn] at hsame
  obtain ⟨bit', hev, hsame'⟩ := clockLoop_evict ht0 ht hbits.1 hsame hloop
  have hqueue := h.queue
  rw [hn] at hqueue
  have hfree : m.free = [] := by
    rw [h.free, hn]
    exact List.drop_eq_nil_of_le (by rw [length_frames_below])
  rw [access_of_full (h.miss hi.tables hv) hfree (by rw [hqueue, hev])]
  refine ⟨?_, rfl⟩
  constructor
  · rw [loadPage_nextFreeFrame, evictPage_nextFreeFrame, countMiss_nextFreeFrame]
    exact h.free
  · rw [loadPage_nextFreeFrame, evictPage_nextFreeFrame, countMiss_nextFreeFrame,
      loadPage_repl, evictPage_repl, countMiss_repl, hn]
    rfl
  · intro ref'' href''
    rw [loadPage_repl, evictPage_repl, countMiss_repl, Option.some.injEq] at href''
    subst href''
    rw [loadPage_nextFreeFrame, evictPage_nextFreeFrame, countMiss_nextFreeFrame, hn]
    exact hsame'
  · intro e he0 he
    rw [loadPage_nextFreeFrame, evictPage_nextFreeFrame, countMiss_nextFreeFrame] at he
    rw [loadPage_invertedPageTable, evictPage_invertedPageTable, countMiss_invertedPageTable]
    change Function.update m.page f (some p) e = _
    by_cases hef : e = f
    · rw [hef, Function.update_self, Function.update_self]
    · rw [Function.update_of_ne hef, Function.update_of_ne hef]
      exact h.page e he0 he

/-- The frame that `find_replacement` returns is noted when it is called. -/
def noteVictim (c : Config) (victims : List ℤ) (s : VM) (r : Request) (_ : VM) : List ℤ :=
  if (readPTE s r.page.pid r.page.VPN).valid = false ∧ (getFreeframe c s).1 = -1 then
    match findReplacement c s.repl with
    | .ok (f, _) => victims ++ [f]
    | .error _ => victims
  else victims

/-- Every access is one of the reference algorithm, with the same victim. -/
lemma Access.clockSim (hpol : c.replacementPolicy = .CLOCK) (hi : Inv c s) (h : ClockSim c s m)
    (hp : c.HasPage r.page) (ha : Access c s r.page r.reqType f b s') (t : VM) :
    ClockSim c s' (m.access r.page) ∧
      (m.access r.page).victims = noteVictim c m.victims s r t := by
  unfold noteVictim
  have hpte : readPTE s r.page.pid r.page.VPN = s.pte r.page := rfl
  have hfull := hi.tables.getFreeframe_full
  rw [hpte]
  cases ha with
  | hit hv hr =>
    rw [if_neg (by rw [hv]; exact fun h => Bool.noConfusion h.1)]
    exact h.hit hpol hi hp hv hr
  | fill hv hn hr =>
    rw [if_neg fun h => absurd (hfull.mp h.2) hn.ne]
    exact h.fill hpol hi hv hn hr
  | evict hv hn hr h0 hf =>
    rw [if_pos ⟨hv, hfull.mpr hn⟩, hr]
    exact h.evict hpol hi hv hn hr

lemma ClockSim.finish (h : ClockSim c s m) (r : Request) (f : ℤ) :
    ClockSim c (finish s r f) m := by
  constructor <;> simp only [finish_repl, finish_nextFreeFrame, finish_invertedPageTable]
  · exact h.free
  · exact h.queue
  · exact h.bit
  · exact h.page

/-- More iterations than are needed change nothing. -/
lemma clockLoop_mono {fuel fuel' : ℕ} {out : ℤ × (ℤ → ℤ) × ℤ} (hle : fuel ≤ fuel')
    (hrun : clockLoop c fuel ref t = .ok out) : clockLoop c fuel' ref t = .ok out := by
  induction fuel generalizing fuel' ref t with
  | zero => cases hrun
  | succ fuel ih =>
    obtain ⟨fuel', rfl⟩ := Nat.exists_eq_succ_of_ne_zero (show fuel' ≠ 0 by omega)
    rw [clockLoop] at hrun ⊢
    split_ifs at hrun ⊢
    · exact hrun
    · exact ih (by omega) hrun
    · exact ih (by omega) hrun

/-- The frames replaced in a run are the victims of the reference algorithm, and the loop of
`clock` is left within `MAX_PFN + 1` iterations. -/
theorem clock_second_chance (c : Config) (hpol : c.replacementPolicy = .CLOCK) (junk : VM)
    (rs : List Request) (hrs : ∀ r ∈ rs, c.InRange r) :
    ∃ s, (run c (start c junk) rs).2 = .ok s ∧
      observe (noteVictim c) c (start c junk) [] rs =
        ((rs.map Request.page).foldl Machine.access (Machine.fresh (frames c.maxPFN))).victims ∧
      ∀ r, c.InRange r → (readPTE s r.page.pid r.page.VPN).valid = false →
        (getFreeframe c s).1 = -1 → ∃ ref f ref' t, s.repl.clockRef = some ref ∧
          clockLoop c (c.maxPFN.toNat + 1) ref s.repl.clockTail = .ok (f, ref', t) ∧
          findReplacement c s.repl =
            .ok (f, { s.repl with clockRef := some ref', clockTail := t }) := by
  have hl : c.replacementPolicy = .LRU → 2 ≤ c.maxPFN := by
    rw [hpol]
    exact nofun
  have hsim := run_simulated (P := fun s vs m => ClockSim c s m ∧ vs = m.victims) hl
    (fun m r => m.access r.page) (Machine.fresh (frames c.maxPFN))
    (fun hi ⟨h, hvs⟩ hr ha => by
      obtain ⟨hsim, hvictims⟩ := ha.clockSim hpol hi h hr.hasPage (finish _ _ _)
      rw [hvs]
      exact ⟨hsim.finish _ _, hvictims.symm⟩)
    hrs (inv_start c junk) ⟨clockSim_start c junk, rfl⟩
  obtain ⟨s, hrun, hi, -, hvs⟩ := hsim
  refine ⟨s, hrun, ?_, fun r hr hv hfull => ?_⟩
  · rw [List.foldl_map]
    exact hvs
  · have hpolicy := hi.policy
    simp only [PolicyInv, hpol] at hpolicy
    obtain ⟨ht0, ht, hbits⟩ := hpolicy
    have hn := hi.tables.getFreeframe_full.mp hfull
    have hpos := c.one_le_maxPFN
    cases href : s.repl.clockRef with
    | none =>
      rw [href] at hbits
      omega
    | some ref =>
      rw [href] at hbits
      obtain ⟨⟨f, ref', t⟩, hloop⟩ := clockLoop_ok hbits.1 ht0 ht (c.maxPFN.toNat + 1) (by omega)
      refine ⟨ref, f, ref', t, rfl, hloop, ?_⟩
      have hloop' := clockLoop_mono (show c.maxPFN.toNat + 1 ≤ 2 * c.maxPFN.toNat by omega) hloop
      simp only [findReplacement, hpol, clock, href, hloop', bind, Except.bind]

/-- The hand clears both bits before it takes frame 0, then frame 1. -/
theorem clock_second_chance_threePages :
    ∃ s, (run (twoFrames .CLOCK) (start (twoFrames .CLOCK) default) threePages).2 = .ok s ∧
      observe (noteVictim (twoFrames .CLOCK)) (twoFrames .CLOCK) (start (twoFrames .CLOCK) default)
        [] threePages = ((threePages.map Request.page).foldl Machine.access
          (Machine.fresh (frames 2))).victims := by
  obtain ⟨s, hrun, hvs, -⟩ :=
    clock_second_chance (twoFrames .CLOCK) rfl default threePages (by decide)
  exact ⟨s, hrun, hvs⟩

end OsProjects.Paging
