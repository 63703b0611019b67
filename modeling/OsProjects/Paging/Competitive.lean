import OsProjects.Library.Competitive
import OsProjects.Paging.Conservative
import OsProjects.Paging.Statistics

/-!
# The policies against every schedule

A run of the simulator is a schedule of `maxPFN` places, whatever its policy, and
its misses are the faults.  FIFO, LRU and CLOCK are conservative, so they stay
within a factor of the best schedule; no policy has a better factor.
-/

namespace OsProjects.Paging
open Competitive

variable {c : Config} {s s' s₀ t : VM} {r : Request} {rs : List Request} {p q : IPTE} {w : Char}
  {f : ℤ} {b : Bool}

/-- The pages in the frames in use. -/
noncomputable def residentPages (s : VM) : Finset IPTE :=
  (Finset.Ico 0 s.nextFreeFrame).image s.invertedPageTable

lemma Tables.mem_residentPages (ht : Tables c s) :
    p ∈ residentPages s ↔ c.HasPage p ∧ (s.pte p).valid = true := by
  rw [residentPages, Finset.mem_image]
  constructor
  · rintro ⟨g, hg, rfl⟩
    rw [Finset.mem_Ico] at hg
    obtain ⟨hp, hv, -⟩ := ht.frame g hg.1 hg.2
    exact ⟨hp, hv⟩
  · rintro ⟨hp, hv⟩
    obtain ⟨h0, hlt, hip⟩ := ht.valid p hp hv
    exact ⟨_, Finset.mem_Ico.mpr ⟨h0, hlt⟩, hip⟩

lemma Tables.card_residentPages (ht : Tables c s) : (residentPages s).card ≤ c.maxPFN.toNat := by
  calc (residentPages s).card
      ≤ (Finset.Ico 0 s.nextFreeFrame).card := Finset.card_image_le
    _ = s.nextFreeFrame.toNat := by rw [Int.card_Ico, sub_zero]
    _ ≤ c.maxPFN.toNat := Int.toNat_le_toNat ht.le

lemma residentPages_finish : residentPages (finish s r f) = residentPages s := by
  rw [residentPages, finish_nextFreeFrame, finish_invertedPageTable]
  rfl

/-- An access brings in its own page and no other. -/
lemma Access.residentPages_subset (hi : Inv c s) (hp : c.HasPage p) (ha : Access c s p w f b s') :
    residentPages s' ⊆ insert p (residentPages s) := by
  intro q hq
  obtain ⟨hqp, hv⟩ := (ha.tables hi.tables hp).mem_residentPages.mp hq
  rw [Finset.mem_insert, hi.tables.mem_residentPages]
  by_cases h : q = p
  · exact Or.inl h
  · exact Or.inr ⟨hqp, ha.valid_of_ne h hv⟩

lemma Access.mem_residentPages (hi : Inv c s) (hp : c.HasPage p) (ha : Access c s p w f b s') :
    p ∈ residentPages s' := by
  apply (ha.tables hi.tables hp).mem_residentPages.mpr
  refine ⟨hp, ?_⟩
  rw [(ha.resident hi.tables hp).2.2.1]

lemma Access.fault (hi : Inv c s) (hp : c.HasPage p) (ha : Access c s p w f b s') :
    s'.stats.missCount = s.stats.missCount + fault (residentPages s) p := by
  rw [ha.missCount.2]
  by_cases hv : (s.pte p).valid = true
  · rw [if_pos hv, fault_of_mem (hi.tables.mem_residentPages.mpr ⟨hp, hv⟩)]
  · rw [if_neg hv, fault_of_notMem fun h => hv (hi.tables.mem_residentPages.mp h).2]

/-- The simulator is a schedule: its frames are the places and its misses the faults. -/
theorem Served.schedule (hrs : ∀ r ∈ rs, c.InRange r) (hi : Inv c s) (hs : Served c s rs t) :
    ∃ n, Schedule c.maxPFN.toNat (residentPages s) (rs.map Request.page) n (residentPages t) ∧
      t.stats.missCount = s.stats.missCount + n := by
  induction hs with
  | nil s => exact ⟨0, .nil _, rfl⟩
  | @cons s s₁ t r rs f b ha _ ih =>
    have hp := (hrs r List.mem_cons_self).hasPage
    have hi₁ := (ha.inv hi hp).finish r f
    obtain ⟨n, hn, hcount⟩ := ih (fun q hq => hrs q (List.mem_cons_of_mem _ hq)) hi₁
    refine ⟨fault (residentPages s) r.page + n, ?_, ?_⟩
    · rw [residentPages_finish] at hn
      exact .cons (ha.mem_residentPages hi hp) (ha.residentPages_subset hi hp)
        (ha.tables hi.tables hp).card_residentPages hn
    · rw [hcount, finish_stats, ha.fault hi hp, add_assoc]

/-! ## The upper bound -/

/-- A window of few pages misses each of them once at most. -/
lemma Served.missCount_window (hz : c.replacementPolicy ≠ .ZERO) (hrs : ∀ r ∈ rs, c.InRange r)
    (hi : Inv c s) (hcard : ((rs.map Request.page).toFinset.card : ℤ) ≤ c.maxPFN)
    (hs : Served c s rs t) : (t.stats.missCount : ℤ) ≤ s.stats.missCount + c.maxPFN := by
  rw [← Finset.empty_union (rs.map Request.page).toFinset] at hcard
  obtain ⟨B, hw⟩ := (window_empty hz hi).served hrs hcard hs
  have hle := Finset.card_le_card hw.subset
  rw [hw.missCount]
  push_cast
  omega

/-- The misses of a run, if it ends well. -/
def misses (c : Config) (s : VM) (rs : List Request) : ℕ :=
  match (run c s rs).2 with
  | .ok t => t.stats.missCount
  | .error _ => 0

lemma misses_of_run (h : (run c s rs).2 = .ok t) : misses c s rs = t.stats.missCount := by
  rw [misses, h]

lemma misses_conservative (hz : c.replacementPolicy ≠ .ZERO)
    (hl : c.replacementPolicy = .LRU → 2 ≤ c.maxPFN) (hrs : ∀ r ∈ rs, c.InRange r)
    (hi : Inv c s) : Conservative c.maxPFN.toNat Request.page (misses c s) rs := by
  intro xs ys hpre hcard
  have hall : ∀ r ∈ xs ++ ys, c.InRange r := fun r hr => hrs r (hpre.subset hr)
  have hxs : ∀ r ∈ xs, c.InRange r := fun r hr => hall r (List.mem_append_left _ hr)
  obtain ⟨t, ht, hrun⟩ := run_served hl hall hi
  obtain ⟨m, hm, hmt⟩ := Served.append.mp ht
  obtain ⟨m', hm', hrunm⟩ := run_served hl hxs hi
  obtain rfl := hm.unique hi hxs hm'
  have hle := hmt.missCount_window hz (fun r hr => hall r (List.mem_append_right _ hr))
    (hm.inv hxs hi) (by have := c.one_le_maxPFN; omega)
  rw [misses_of_run hrun, misses_of_run hrunm]
  have := c.one_le_maxPFN
  omega

lemma missCount_competitive (before window : List Request) {h n : ℕ} {C D : Finset IPTE}
    (hz : c.replacementPolicy ≠ .ZERO) (hl : c.replacementPolicy = .LRU → 2 ≤ c.maxPFN)
    (hi : Inv c s₀) (hall : ∀ r ∈ before ++ window, c.InRange r) (hh : (h : ℤ) ≤ c.maxPFN)
    (hs : Schedule h C (window.map Request.page) n D) (hrunS : (run c s₀ before).2 = .ok s)
    (hrunT : (run c s₀ (before ++ window)).2 = .ok t) :
    (c.maxPFN + 1 - h) * (t.stats.missCount - s.stats.missCount - c.maxPFN) ≤ c.maxPFN * n := by
  have hpos := c.one_le_maxPFN
  have hbound := competitive (misses_conservative hz hl hall hi) (by omega) (by omega) hs
  rw [misses_of_run hrunS, misses_of_run hrunT] at hbound
  have hk : ((c.maxPFN.toNat + 1 - h : ℕ) : ℤ) = c.maxPFN + 1 - h := by omega
  have hk' : (c.maxPFN.toNat : ℤ) = c.maxPFN := by omega
  zify at hbound
  rw [hk, hk'] at hbound
  linarith

/-- However the first requests were served, on the rest a machine of `maxPFN` frames has at most
`maxPFN` misses for every `maxPFN + 1 - h` faults of any schedule of `h` places, and `maxPFN`
more. -/
theorem misses_competitive (c : Config) (hz : c.replacementPolicy ≠ .ZERO)
    (hl : c.replacementPolicy = .LRU → 2 ≤ c.maxPFN) (junk : VM) (before window : List Request)
    (hbefore : ∀ r ∈ before, c.InRange r) (hwindow : ∀ r ∈ window, c.InRange r)
    {h n : ℕ} {C D : Finset IPTE} (hh : (h : ℤ) ≤ c.maxPFN)
    (hs : Schedule h C (window.map Request.page) n D) :
    ∃ s t, (run c (start c junk) before).2 = .ok s ∧
      (run c (start c junk) (before ++ window)).2 = .ok t ∧
      (c.maxPFN + 1 - h) * (t.stats.missCount - s.stats.missCount - c.maxPFN) ≤ c.maxPFN * n := by
  have hall : ∀ r ∈ before ++ window, c.InRange r := fun r hr =>
    (List.mem_append.mp hr).elim (hbefore r) (hwindow r)
  obtain ⟨s, -, hrunS⟩ := run_served hl hbefore (inv_start c junk)
  obtain ⟨t, -, hrunT⟩ := run_served hl hall (inv_start c junk)
  exact ⟨s, t, hrunS, hrunT,
    missCount_competitive before window hz hl (inv_start c junk) hall hh hs hrunS hrunT⟩

/-- A single place has four faults, FIFO with two frames no more than six. -/
theorem misses_competitive_threePages :
    ∃ s t, (run (twoFrames .FIFO) (start (twoFrames .FIFO) default) []).2 = .ok s ∧
      (run (twoFrames .FIFO) (start (twoFrames .FIFO) default) threePages).2 = .ok t ∧
      ((2 : ℤ) + 1 - 1) * (t.stats.missCount - s.stats.missCount - 2) ≤ 2 * (4 : ℕ) :=
  misses_competitive (twoFrames .FIFO) (by decide) (fun h => absurd h (by decide)) default []
    threePages (by decide) (by decide) (h := 1) (C := ∅) (by decide)
    (.cons (E := {(⟨0, 0⟩ : IPTE)}) (by decide) (by decide) (by decide)
      (.cons (E := {(⟨0, 1⟩ : IPTE)}) (by decide) (by decide) (by decide)
        (.cons (E := {(⟨0, 2⟩ : IPTE)}) (by decide) (by decide) (by decide)
          (.cons (E := {(⟨0, 0⟩ : IPTE)}) (by decide) (by decide) (by decide) (.nil _)))))

/-- Two machines on the same requests: more frames and a conservative policy make up for
whatever the other policy is. -/
theorem misses_competitive_machines (c d : Config) (hz : c.replacementPolicy ≠ .ZERO)
    (hlc : c.replacementPolicy = .LRU → 2 ≤ c.maxPFN)
    (hld : d.replacementPolicy = .LRU → 2 ≤ d.maxPFN) (hdc : d.maxPFN ≤ c.maxPFN)
    (junk junk' : VM) (rs : List Request) (hc : ∀ r ∈ rs, c.InRange r)
    (hd : ∀ r ∈ rs, d.InRange r) :
    ∃ t u, (run c (start c junk) rs).2 = .ok t ∧ (run d (start d junk') rs).2 = .ok u ∧
      (c.maxPFN + 1 - d.maxPFN) * (t.stats.missCount - c.maxPFN) ≤
        c.maxPFN * u.stats.missCount := by
  obtain ⟨u, hu, hrunU⟩ := run_served hld hd (inv_start d junk')
  obtain ⟨n, hn, hcount⟩ := hu.schedule hd (inv_start d junk')
  obtain ⟨t, -, hrunT⟩ := run_served hlc hc (inv_start c junk)
  have hpos := d.one_le_maxPFN
  have hle := missCount_competitive [] rs hz hlc (inv_start c junk) hc (by omega) hn rfl hrunT
  have hzero : ∀ (e : Config) (junk : VM), (start e junk).stats.missCount = 0 := fun _ _ => rfl
  rw [hzero, zero_add] at hcount
  rw [hzero, show ((d.maxPFN.toNat : ℕ) : ℤ) = d.maxPFN by omega] at hle
  refine ⟨t, u, hrunT, hrunU, ?_⟩
  rw [hcount]
  simpa using hle

theorem misses_competitive_machines_threePages :
    ∃ t u, (run (twoFrames .LRU) (start (twoFrames .LRU) default) threePages).2 = .ok t ∧
      (run (twoFrames .ZERO) (start (twoFrames .ZERO) default) threePages).2 = .ok u ∧
      ((2 : ℤ) + 1 - 2) * (t.stats.missCount - 2) ≤ 2 * u.stats.missCount :=
  misses_competitive_machines (twoFrames .LRU) (twoFrames .ZERO) (by decide) (fun _ => by decide)
    (fun h => absurd h (by decide)) (by decide) default default threePages (by decide) (by decide)

/-! ## The lower bound -/

/-- A page with a short enough number can be asked for. -/
lemma exists_request (hp : c.HasPage p) (hshort : p.VPN < 2 ^ 23) :
    ∃ r, c.InRange r ∧ r.page = p := by
  obtain ⟨h1, h2, h3, h4⟩ := hp
  have haddr : (Int32.ofInt (256 * p.VPN)).toInt = 256 * p.VPN :=
    Int32.toInt_ofInt_of_le (by omega) (by omega)
  refine ⟨⟨p.pid, 'R', Int32.ofInt (256 * p.VPN), 0⟩, ⟨h1, h2, ?_, ?_, Or.inl rfl⟩, ?_⟩
  · change 0 ≤ (Int32.ofInt (256 * p.VPN)).toInt
    omega
  · change (Int32.ofInt (256 * p.VPN)).toInt < _
    omega
  · apply IPTE.eq_iff.mpr
    refine ⟨rfl, ?_⟩
    change (Int32.ofInt (256 * p.VPN) >>> 8).toInt = _
    rw [virtAddr_shiftRight, haddr]
    omega

/-- With more pages than frames there is always a page to ask for that is not there. -/
lemma exists_all_miss {U : Finset IPTE} (hl : c.replacementPolicy = .LRU → 2 ≤ c.maxPFN)
    (hU : c.maxPFN < U.card) (hpages : ∀ p ∈ U, c.HasPage p ∧ p.VPN < 2 ^ 23) (n : ℕ) :
    ∀ s, Inv c s → ∃ rs t, rs.length = n ∧ (∀ r ∈ rs, c.InRange r ∧ r.page ∈ U) ∧
      Served c s rs t ∧ t.stats.missCount = s.stats.missCount + n := by
  induction n with
  | zero => exact fun s _ => ⟨[], s, rfl, fun r hr => absurd hr List.not_mem_nil, .nil s, rfl⟩
  | succ n ih =>
    intro s hi
    have hlt : (residentPages s).card < U.card := by
      have := hi.tables.card_residentPages
      have := c.one_le_maxPFN
      omega
    obtain ⟨p, hpU, hp⟩ := Finset.exists_mem_notMem_of_card_lt_card hlt
    obtain ⟨hpage, hshort⟩ := hpages p hpU
    obtain ⟨r, hr, rfl⟩ := exists_request hpage hshort
    rcases exists_access hi hpage r.reqType with ⟨f, b, s', ha⟩ | ⟨hpol, h1, -⟩
    · obtain ⟨rs, t, hlen, hall, ht, hcount⟩ := ih (finish s' r f) ((ha.inv hi hpage).finish r f)
      refine ⟨r :: rs, t, by rw [List.length_cons, hlen], ?_, .cons ha ht, ?_⟩
      · exact List.forall_mem_cons.mpr ⟨⟨hr, hpU⟩, hall⟩
      · rw [hcount, finish_stats, ha.fault hi hpage, fault_of_notMem hp]
        omega
    · have := hl hpol
      omega

/-- No policy does better: some requests for the pages of any set of `maxPFN + 1` all miss, though a
schedule of as many places has a fault in `maxPFN` requests. -/
theorem misses_unavoidable (c : Config) (hl : c.replacementPolicy = .LRU → 2 ≤ c.maxPFN)
    (junk : VM) (U : Finset IPTE) (hU : (U.card : ℤ) = c.maxPFN + 1)
    (hpages : ∀ p ∈ U, c.HasPage p ∧ p.VPN < 2 ^ 23) (n : ℕ) :
    ∃ rs t m D, rs.length = n ∧ (∀ r ∈ rs, c.InRange r ∧ r.page ∈ U) ∧
      (run c (start c junk) rs).2 = .ok t ∧ t.stats.missCount = n ∧
      Schedule c.maxPFN.toNat ∅ (rs.map Request.page) m D ∧
      c.maxPFN * m ≤ n + c.maxPFN * (c.maxPFN + 1) := by
  have hi := inv_start c junk
  have hpos := c.one_le_maxPFN
  obtain ⟨rs, t, hlen, hall, ht, hcount⟩ := exists_all_miss hl (by omega) hpages n _ hi
  have hrs : ∀ r ∈ rs, c.InRange r := fun r hr => (hall r hr).1
  obtain ⟨t', ht', hrun⟩ := run_served hl hrs hi
  obtain rfl := ht.unique hi hrs ht'
  obtain ⟨m, D, hs, hm⟩ := exists_schedule (k := c.maxPFN.toNat) (by omega) (by omega)
    (rs.map Request.page) ∅ (Finset.empty_subset U) (by simp) fun p hp => by
      obtain ⟨r, hr, rfl⟩ := List.mem_map.mp hp
      exact (hall r hr).2
  refine ⟨rs, t, m, D, hlen, hall, hrun, ?_, hs, ?_⟩
  · rw [hcount]
    exact zero_add n
  · rw [List.length_map, hlen, Finset.card_empty, Nat.sub_zero] at hm
    have hk : (c.maxPFN.toNat : ℤ) = c.maxPFN := by omega
    zify [show 1 ≤ c.maxPFN.toNat by omega] at hm
    rw [hk] at hm
    linarith

theorem misses_unavoidable_threePages :
    ∃ rs t m D, rs.length = 7 ∧ (∀ r ∈ rs, (twoFrames .CLOCK).InRange r ∧
        r.page ∈ ({⟨0, 0⟩, ⟨0, 1⟩, ⟨0, 2⟩} : Finset IPTE)) ∧
      (run (twoFrames .CLOCK) (start (twoFrames .CLOCK) default) rs).2 = .ok t ∧
      t.stats.missCount = 7 ∧ Schedule 2 ∅ (rs.map Request.page) m D ∧
      (2 : ℤ) * m ≤ (7 : ℕ) + 2 * (2 + 1) :=
  misses_unavoidable (twoFrames .CLOCK) (fun h => absurd h (by decide)) default
    {⟨0, 0⟩, ⟨0, 1⟩, ⟨0, 2⟩} (by decide) (by
      intro p hp
      simp only [Finset.mem_insert, Finset.mem_singleton] at hp
      rcases hp with rfl | rfl | rfl <;> exact ⟨by unfold Config.HasPage; decide, by decide⟩) 7

end OsProjects.Paging
