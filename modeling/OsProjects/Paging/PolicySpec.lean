import OsProjects.Paging.Policy
import OsProjects.Library.Hand

/-!
# What the replacement policies keep

`PolicyInv c n r` is the state of the policies' data when the frames below `n`
are in use.  Every operation keeps it, and every victim is a frame, the only
exception being LRU on a machine with a single frame.
-/

namespace OsProjects.Paging
open DoublyLinked

/-- The list at `head` holds the frames `fs`. -/
def LruList (r : Replacer) (fs : List ℤ) : Prop :=
  ∃ l, IsList r.heap r.head l ∧ datas l = fs

/-- The reference bits are bits, and all are set until the frames are full. -/
def BitsInv (c : Config) (n : ℤ) (ref : ℤ → ℤ) (tail : ℤ) : Prop :=
  (∀ f, ref f = 0 ∨ ref f = 1) ∧ (n < c.maxPFN → tail = 0 ∧ ∀ f, ref f = 1)

def PolicyInv (c : Config) (n : ℤ) (r : Replacer) : Prop :=
  match c.replacementPolicy with
  | .ZERO => True
  | .FIFO => 0 ≤ r.fifoTail ∧ r.fifoTail < c.maxPFN ∧ (n < c.maxPFN → r.fifoTail = 0)
  | .LRU => ∃ fs, LruList r fs ∧ fs.Nodup ∧ ∀ f, f ∈ fs ↔ 0 ≤ f ∧ f < n
  | .CLOCK => 0 ≤ r.clockTail ∧ r.clockTail < c.maxPFN ∧
      match r.clockRef with
      | none => n = 0 ∧ r.clockTail = 0
      | some ref => BitsInv c n ref r.clockTail

/-! ## LRU -/

lemma LruList.unique {r : Replacer} {fs gs : List ℤ} (hf : LruList r fs) (hg : LruList r gs) :
    fs = gs := by
  obtain ⟨l, hl, rfl⟩ := hf
  obtain ⟨m, hm, rfl⟩ := hg
  rw [hl.seg.unique hm.seg]

lemma lru_spec {r : Replacer} {fs : List ℤ} {f : ℤ} (hr : LruList r (fs ++ [f])) (hfs : fs ≠ []) :
    ∃ r', lru r = .ok (f, r') ∧ LruList r' (f :: fs) := by
  obtain ⟨l, hl, hd⟩ := hr
  obtain ⟨l₁, l₂, rfl, hd₁, hd₂⟩ := List.map_eq_append_iff.mp hd
  obtain ⟨c, rfl, rfl⟩ : ∃ c : ℕ × ℤ, l₂ = [c] ∧ c.2 = f := by
    simpa [List.map_eq_singleton_iff] using hd₂
  cases l₁ using List.reverseRecOn with
  | nil => exact absurd hd₁.symm hfs
  | append_singleton l₁ b =>
    have hpne : r.head ≠ none := fun h0 => by simpa using hl.eq_nil_iff.mp h0
    have hfuel : (l₁ ++ [b]).length < r.heap.length := by
      have := hl.length_le
      simp only [List.length_append, List.length_cons, List.length_nil] at this ⊢
      omega
    have hlast := goToLast_eq hl.seg hfuel
    have hc := hl.seg.getElem?_last
    obtain ⟨h₁, htail, hl₁, -⟩ := listRemoveTail_spec (by simpa using hl)
    obtain ⟨h₂, hins, hl₂⟩ := listInsertHead_spec c.2 hl₁
    refine ⟨{ r with heap := h₂, head := some h₁.length }, ?_, _, hl₂, ?_⟩
    · rw [lru, if_neg hpne]
      simp only [hlast, deref_eq hc, htail, hins, bind, Except.bind]
    · rw [← hd₁]
      rfl

/-- With one frame the list has one node, and `list_remove_tail` fails on it. -/
lemma lru_single {r : Replacer} {f : ℤ} (hr : LruList r [f]) : lru r = .error .nullPointer := by
  obtain ⟨l, hl, hd⟩ := hr
  obtain ⟨c, rfl, rfl⟩ : ∃ c : ℕ × ℤ, l = [c] ∧ c.2 = f := by
    simpa [datas, List.map_eq_singleton_iff] using hd
  have hpne : r.head ≠ none := fun h0 => by simpa using hl.eq_nil_iff.mp h0
  have hlast := goToLast_eq (l := []) hl.seg hl.length_le
  have hc := hl.seg.getElem?_last (l := [])
  rw [lru, if_neg hpne]
  simp only [hlast, deref_eq hc, listRemoveTail_singleton hl, bind, Except.bind]

lemma noteHit_lru {c : Config} {r : Replacer} {fs : List ℤ} {f : ℤ}
    (hc : c.replacementPolicy = .LRU) (hr : LruList r fs) (hf : f ∈ fs) :
    ∃ r', noteHit c r f = .ok r' ∧ LruList r' (f :: fs.erase f) := by
  obtain ⟨l, hl, rfl⟩ := hr
  obtain ⟨d₁, d₂, hnot, hd, her⟩ := List.exists_erase_eq hf
  obtain ⟨l₁, l₂, rfl, hd₁, hd₂⟩ := List.map_eq_append_iff.mp hd
  obtain ⟨⟨a, x⟩, l₂, rfl, rfl, hd₂⟩ := List.map_eq_cons_iff.mp hd₂
  obtain ⟨h₁, p₁, hrem, hl₁, -⟩ := listRemove_spec (x := x) hl (by rw [datas, hd₁]; exact hnot)
  obtain ⟨h₂, hins, hl₂⟩ := listInsertHead_spec x hl₁
  refine ⟨{ r with heap := h₂, head := some h₁.length }, ?_, _, hl₂, ?_⟩
  · simp only [noteHit, hc, hrem, hins, bind, Except.bind]
  · rw [her, ← hd₁]
    simp only [datas, List.map_cons, List.map_append] at hd₂ ⊢
    rw [(List.cons.inj hd₂).2]

lemma noteFill_lru {c : Config} {r : Replacer} {fs : List ℤ} (f : ℤ)
    (hc : c.replacementPolicy = .LRU) (hr : LruList r fs) :
    ∃ r', noteFill c r f = .ok r' ∧ LruList r' (f :: fs) := by
  obtain ⟨l, hl, rfl⟩ := hr
  obtain ⟨h', hins, hl'⟩ := listInsertHead_spec f hl
  refine ⟨{ r with heap := h', head := some r.heap.length }, ?_, _, hl', rfl⟩
  simp only [noteFill, hc, hins, bind, Except.bind]

/-! ## CLOCK -/

lemma bits_update {ref : ℤ → ℤ} (hb : ∀ g, ref g = 0 ∨ ref g = 1) (f : ℤ) {v : ℤ}
    (hv : v = 0 ∨ v = 1) (g : ℤ) :
    Function.update ref f v g = 0 ∨ Function.update ref f v g = 1 := by
  by_cases hg : g = f
  · rw [hg, Function.update_self]
    exact hv
  · rw [Function.update_of_ne hg]
    exact hb g

/-- What the loop preserves while it clears set bits holds where it stops. -/
lemma clockLoop_invariant {c : Config} {I : (ℤ → ℤ) → ℤ → Prop}
    (hbit : ∀ ref t, I ref t → ref t = 0 ∨ ref t = 1)
    (hstep : ∀ ref t, I ref t → ref t = 1 → I (Function.update ref t 0) ((t + 1) % c.maxPFN))
    {fuel : ℕ} {ref : ℤ → ℤ} {tail : ℤ} (hI : I ref tail) {f tail' : ℤ} {ref' : ℤ → ℤ}
    (hrun : clockLoop c fuel ref tail = .ok (f, ref', tail')) :
    ∃ ref₁, I ref₁ f ∧ ref₁ f = 0 ∧ ref' = Function.update ref₁ f 1 ∧
      tail' = (f + 1) % c.maxPFN := by
  induction fuel generalizing ref tail with
  | zero => simp [clockLoop] at hrun
  | succ fuel ih =>
    rcases hbit ref tail hI with h0 | h1
    · simp only [clockLoop, h0, if_true, Except.ok.injEq, Prod.mk.injEq] at hrun
      obtain ⟨rfl, rfl, rfl⟩ := hrun
      exact ⟨ref, hI, h0, rfl, rfl⟩
    · simp only [clockLoop, h1, one_ne_zero, if_false, if_true] at hrun
      exact ih (hstep ref tail hI h1) hrun

/-- A clear bit `j` positions ahead, or `tail` itself after the first step, stops the loop. -/
lemma clockLoop_reaches {c : Config} {ref : ℤ → ℤ} (hbits : ∀ f, ref f = 0 ∨ ref f = 1) {tail : ℤ}
    {j fuel : ℕ} (hj : ref ((tail + j) % c.maxPFN) = 0 ∨ (0 < j ∧ (tail + j) % c.maxPFN = tail))
    (htail : tail % c.maxPFN = tail) (hfuel : j < fuel) :
    ∃ out, clockLoop c fuel ref tail = .ok out := by
  induction j generalizing ref tail fuel with
  | zero =>
    obtain ⟨fuel, rfl⟩ := Nat.exists_eq_succ_of_ne_zero (by omega : fuel ≠ 0)
    have h0 : ref tail = 0 := by simpa [htail] using hj
    exact ⟨_, by rw [clockLoop, if_pos h0]⟩
  | succ j ih =>
    obtain ⟨fuel, rfl⟩ := Nat.exists_eq_succ_of_ne_zero (by omega : fuel ≠ 0)
    rcases hbits tail with h0 | h1
    · exact ⟨_, by rw [clockLoop, if_pos h0]⟩
    · simp only [clockLoop, h1, one_ne_zero, if_false, if_true]
      have hpos : ((tail + 1) % c.maxPFN + (j : ℤ)) % c.maxPFN =
          (tail + ((j + 1 : ℕ) : ℤ)) % c.maxPFN := by
        rw [Int.emod_add_emod]
        push_cast
        ring_nf
      refine ih (bits_update hbits tail (Or.inl rfl)) (Or.inl ?_)
        (Int.emod_emod_of_dvd _ dvd_rfl) (by omega)
      rw [hpos]
      rcases hj with hj | ⟨-, hj⟩
      · by_cases hf : (tail + ((j + 1 : ℕ) : ℤ)) % c.maxPFN = tail
        · rw [hf, Function.update_self]
        · rwa [Function.update_of_ne hf]
      · rw [hj, Function.update_self]

/-- `clock` stops after at most one round and one step. -/
lemma clockLoop_ok {c : Config} {ref : ℤ → ℤ} (hbits : ∀ f, ref f = 0 ∨ ref f = 1) {tail : ℤ}
    (h0 : 0 ≤ tail) (hk : tail < c.maxPFN) (fuel : ℕ) (hfuel : c.maxPFN.toNat < fuel) :
    ∃ out, clockLoop c fuel ref tail = .ok out := by
  have hpos := c.one_le_maxPFN
  have hself : tail % c.maxPFN = tail := Int.emod_eq_of_lt h0 hk
  refine clockLoop_reaches hbits (j := c.maxPFN.toNat) (Or.inr ⟨by omega, ?_⟩) hself hfuel
  rw [Int.toNat_of_nonneg (by omega), Int.add_emod_right, hself]

/-! ## The invariant of the policies -/

lemma policyInv_start (c : Config) : PolicyInv c 0 Replacer.start := by
  have hpos := c.one_le_maxPFN
  unfold PolicyInv
  split
  · trivial
  · exact ⟨le_rfl, by simp only [Replacer.start]; omega, fun _ => rfl⟩
  · exact ⟨[], ⟨[], IsList.nil _, rfl⟩, List.nodup_nil, fun f => by simp⟩
  · exact ⟨le_rfl, by simp only [Replacer.start]; omega, rfl, rfl⟩

theorem noteFill_inv {c : Config} {n : ℤ} {r : Replacer} (hr : PolicyInv c n r)
    (h0 : 0 ≤ n) (hn : n < c.maxPFN) :
    ∃ r', noteFill c r n = .ok r' ∧ PolicyInv c (n + 1) r' := by
  cases hp : c.replacementPolicy with
  | ZERO => exact ⟨r, by simp [noteFill, hp], by simp [PolicyInv, hp]⟩
  | FIFO =>
    simp only [PolicyInv, hp] at hr
    refine ⟨r, by simp [noteFill, hp], ?_⟩
    simp only [PolicyInv, hp]
    exact ⟨hr.1, hr.2.1, fun _ => hr.2.2 hn⟩
  | LRU =>
    simp only [PolicyInv, hp] at hr
    obtain ⟨fs, hfs, hnd, hmem⟩ := hr
    obtain ⟨r', hrun, hfs'⟩ := noteFill_lru n hp hfs
    refine ⟨r', hrun, ?_⟩
    simp only [PolicyInv, hp]
    refine ⟨n :: fs, hfs', List.nodup_cons.mpr ⟨fun h => ?_, hnd⟩, fun f => ?_⟩
    · have := (hmem n).mp h
      omega
    · rw [List.mem_cons, hmem]
      omega
  | CLOCK =>
    simp only [PolicyInv, hp] at hr
    obtain ⟨ht0, htk, hbits⟩ := hr
    cases href : r.clockRef with
    | none =>
      rw [href] at hbits
      refine ⟨{ r with clockRef := some fun _ => 1 }, by simp [noteFill, hp, href], ?_⟩
      simp only [PolicyInv, hp]
      exact ⟨ht0, htk, fun _ => Or.inr rfl, fun _ => ⟨hbits.2, fun _ => rfl⟩⟩
    | some ref =>
      rw [href] at hbits
      refine ⟨r, by simp [noteFill, hp, href], ?_⟩
      simp only [PolicyInv, hp, href]
      exact ⟨ht0, htk, hbits.1, fun _ => hbits.2 hn⟩

theorem noteHit_inv {c : Config} {n f : ℤ} {r : Replacer} (hr : PolicyInv c n r)
    (h0 : 0 ≤ f) (hf : f < n) :
    ∃ r', noteHit c r f = .ok r' ∧ PolicyInv c n r' := by
  cases hp : c.replacementPolicy with
  | ZERO => exact ⟨r, by simp [noteHit, hp], hr⟩
  | FIFO => exact ⟨r, by simp [noteHit, hp], hr⟩
  | LRU =>
    simp only [PolicyInv, hp] at hr
    obtain ⟨fs, hfs, hnd, hmem⟩ := hr
    have hfm : f ∈ fs := (hmem f).mpr ⟨h0, hf⟩
    obtain ⟨r', hrun, hfs'⟩ := noteHit_lru hp hfs hfm
    have hperm := List.perm_cons_erase hfm
    refine ⟨r', hrun, ?_⟩
    simp only [PolicyInv, hp]
    exact ⟨_, hfs', hperm.nodup_iff.mp hnd, fun g => by rw [← hperm.mem_iff, hmem]⟩
  | CLOCK =>
    simp only [PolicyInv, hp] at hr
    obtain ⟨ht0, htk, hbits⟩ := hr
    cases href : r.clockRef with
    | none =>
      rw [href] at hbits
      omega
    | some ref =>
      rw [href] at hbits
      refine ⟨{ r with clockRef := some (Function.update ref f 1) },
        by simp only [noteHit, hp, href], ?_⟩
      simp only [PolicyInv, hp]
      refine ⟨ht0, htk, bits_update hbits.1 f (Or.inr rfl), fun hn => ⟨(hbits.2 hn).1, fun g => ?_⟩⟩
      by_cases hg : g = f
      · rw [hg, Function.update_self]
      · rw [Function.update_of_ne hg]
        exact (hbits.2 hn).2 g

/-- The list of a full machine ends in a frame, and has another one before it
unless there is a single frame. -/
lemma lru_frames {c : Config} {fs : List ℤ}
    (hmem : ∀ f, f ∈ fs ↔ 0 ≤ f ∧ f < c.maxPFN) :
    ∃ gs f, fs = gs ++ [f] ∧ (gs = [] → c.maxPFN = 1 ∧ f = 0) := by
  have hpos := c.one_le_maxPFN
  have h0 : (0 : ℤ) ∈ fs := (hmem 0).mpr ⟨le_rfl, by omega⟩
  cases fs using List.reverseRecOn with
  | nil => simp at h0
  | append_singleton gs f =>
    refine ⟨gs, f, rfl, ?_⟩
    rintro rfl
    have hf0 : f = 0 := by simpa [eq_comm] using h0
    refine ⟨?_, hf0⟩
    by_contra hne
    have h1 := (hmem 1).mpr ⟨by omega, by omega⟩
    simp [hf0] at h1

/-- LRU returns the last frame of its list and makes it the first. -/
lemma findReplacement_lru {c : Config} {r r' : Replacer} {fs : List ℤ} {f : ℤ}
    (hp : c.replacementPolicy = .LRU) (hfs : LruList r fs)
    (hmem : ∀ f, f ∈ fs ↔ 0 ≤ f ∧ f < c.maxPFN) (hr : findReplacement c r = .ok (f, r')) :
    ∃ gs, fs = gs ++ [f] ∧ LruList r' (f :: gs) := by
  obtain ⟨gs, g, rfl, -⟩ := lru_frames hmem
  simp only [findReplacement, hp] at hr
  by_cases hgs : gs = []
  · rw [hgs] at hfs
    rw [lru_single hfs] at hr
    cases hr
  · obtain ⟨r₁, hr₁, hlist⟩ := lru_spec hfs hgs
    obtain ⟨rfl, rfl⟩ := Prod.mk.inj (Except.ok.inj (hr.symm.trans hr₁))
    exact ⟨gs, rfl, hlist⟩

/-- CLOCK returns the frame at which its loop stops. -/
lemma findReplacement_clock {c : Config} {r r' : Replacer} {f : ℤ}
    (hp : c.replacementPolicy = .CLOCK) (hr : findReplacement c r = .ok (f, r')) :
    ∃ ref ref' tail', r.clockRef = some ref ∧
      clockLoop c (2 * c.maxPFN.toNat) ref r.clockTail = .ok (f, ref', tail') ∧
      r' = { r with clockRef := some ref', clockTail := tail' } := by
  cases href : r.clockRef with
  | none =>
    simp only [findReplacement, hp, clock, href] at hr
    cases hr
  | some ref =>
    simp only [findReplacement, hp, clock, href] at hr
    cases hloop : clockLoop c (2 * c.maxPFN.toNat) ref r.clockTail with
    | error e =>
      rw [hloop] at hr
      cases hr
    | ok out =>
      obtain ⟨g, ref', tail'⟩ := out
      rw [hloop] at hr
      obtain ⟨rfl, rfl⟩ := Prod.mk.inj (Except.ok.inj hr)
      exact ⟨ref, ref', tail', rfl, hloop, rfl⟩

/-- A victim is a frame; only LRU on a single frame fails to name one. -/
theorem findReplacement_inv {c : Config} {r : Replacer} (hr : PolicyInv c c.maxPFN r) :
    (∃ f r', findReplacement c r = .ok (f, r') ∧ 0 ≤ f ∧ f < c.maxPFN ∧
      PolicyInv c c.maxPFN r') ∨
    (c.replacementPolicy = .LRU ∧ c.maxPFN = 1 ∧ findReplacement c r = .error .nullPointer) := by
  have hpos := c.one_le_maxPFN
  cases hp : c.replacementPolicy with
  | ZERO => exact Or.inl ⟨0, r, by simp [findReplacement, hp], le_rfl, by omega, hr⟩
  | FIFO =>
    simp only [PolicyInv, hp] at hr
    refine Or.inl ⟨r.fifoTail, (fifo c r).2, by simp [findReplacement, hp, fifo], hr.1, hr.2.1, ?_⟩
    simp only [PolicyInv, hp, fifo]
    exact ⟨Hand.succ_mod_nonneg (by omega), Hand.succ_mod_lt (by omega),
      fun h => absurd h (lt_irrefl _)⟩
  | LRU =>
    simp only [PolicyInv, hp] at hr
    obtain ⟨fs, hfs, hnd, hmem⟩ := hr
    obtain ⟨gs, f, rfl, hsingle⟩ := lru_frames hmem
    by_cases hgs : gs = []
    · obtain ⟨h1, -⟩ := hsingle hgs
      subst hgs
      exact Or.inr ⟨rfl, h1, by simp only [findReplacement, hp, lru_single hfs]⟩
    · obtain ⟨r', hrun, hfs'⟩ := lru_spec hfs hgs
      have hf := (hmem f).mp (by simp)
      have hperm : (gs ++ [f]).Perm (f :: gs) := List.perm_append_singleton f gs
      refine Or.inl ⟨f, r', by simp only [findReplacement, hp, hrun], hf.1, hf.2, ?_⟩
      simp only [PolicyInv, hp]
      exact ⟨_, hfs', hperm.nodup_iff.mp hnd, fun g => by rw [← hperm.mem_iff, hmem]⟩
  | CLOCK =>
    simp only [PolicyInv, hp] at hr
    obtain ⟨ht0, htk, hbits⟩ := hr
    cases href : r.clockRef with
    | none =>
      rw [href] at hbits
      omega
    | some ref =>
      rw [href] at hbits
      obtain ⟨⟨f, ref', tail'⟩, hrun⟩ :=
        clockLoop_ok hbits.1 ht0 htk (2 * c.maxPFN.toNat) (by omega)
      have hinv := clockLoop_invariant
        (I := fun ref t => (∀ g, ref g = 0 ∨ ref g = 1) ∧ 0 ≤ t ∧ t < c.maxPFN)
        (fun ref t h => h.1 t) ?_ ⟨hbits.1, ht0, htk⟩ hrun
      · obtain ⟨ref₁, ⟨hb, hf0, hfk⟩, -, rfl, rfl⟩ := hinv
        refine Or.inl ⟨f, { r with
          clockRef := some (Function.update ref₁ f 1), clockTail := (f + 1) % c.maxPFN }, ?_,
          hf0, hfk, ?_⟩
        · simp only [findReplacement, hp, clock, href, hrun, bind, Except.bind]
        · simp only [PolicyInv, hp]
          exact ⟨Hand.succ_mod_nonneg (by omega), Hand.succ_mod_lt (by omega),
            bits_update hb f (Or.inr rfl), fun h => absurd h (lt_irrefl _)⟩
      · rintro ref t ⟨hb, -, -⟩ -
        exact ⟨bits_update hb t (Or.inl rfl), Hand.succ_mod_nonneg (by omega),
          Hand.succ_mod_lt (by omega)⟩

end OsProjects.Paging
