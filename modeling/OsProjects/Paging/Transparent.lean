import OsProjects.Paging.Service

/-!
# Paging is transparent

The specification of the simulator is a flat memory with one byte for each page.
`Coherent` ties the frames and the swap disk to it: a resident page has its byte
in its frame, and a page that is absent or clean has its byte on the swap disk.
-/

namespace OsProjects.Paging

/-- The byte of the latest write to `p` among `rs`, `'A'` if there is none. -/
def lastWritten (rs : List Request) (p : IPTE) : UInt8 :=
  match rs.reverse.find? fun r => r.reqType = 'W' ∧ r.page = p with
  | some r => r.byte
  | none => swapInit

/-- A request on the flat memory. -/
def flatStep (mem : IPTE → UInt8) (r : Request) : IPTE → UInt8 :=
  if r.reqType = 'W' then Function.update mem r.page r.byte else mem

lemma foldl_flatStep (rs : List Request) :
    rs.foldl flatStep (fun _ => swapInit) = lastWritten rs := by
  induction rs using List.reverseRecOn with
  | nil => rfl
  | append_singleton rs r ih =>
    funext p
    rw [List.foldl_append, ih]
    simp only [List.foldl_cons, List.foldl_nil, flatStep, lastWritten, List.reverse_append,
      List.reverse_cons, List.reverse_nil, List.nil_append, List.singleton_append]
    by_cases hw : r.reqType = 'W'
    · rw [if_pos hw]
      by_cases hp : r.page = p
      · rw [List.find?_cons_of_pos (by simp [hw, hp]), ← hp, Function.update_self]
      · rw [List.find?_cons_of_neg (by simp [hp]), Function.update_of_ne (Ne.symm hp)]
        rfl
    · rw [if_neg hw, List.find?_cons_of_neg (by simp [hw])]
      rfl

structure Coherent (c : Config) (s : VM) (mem : IPTE → UInt8) : Prop where
  resident : ∀ p, c.HasPage p → (s.pte p).valid = true → s.physicalMem (s.pte p).PFN = mem p
  clean : ∀ p, c.HasPage p → ((s.pte p).valid = true → (s.pte p).dirty = false) → s.swap p = mem p

lemma coherent_start (c : Config) (junk : VM) :
    Coherent c (start c junk) fun _ => swapInit := by
  constructor
  · intro p hp hv
    rw [start_pte junk hp] at hv
    exact absurd hv Bool.false_ne_true
  · intro p hp _
    exact start_swap junk hp

variable {c : Config} {s : VM} {mem : IPTE → UInt8} {p : IPTE} {w : Char} {repl : Replacer}

lemma Coherent.hit (hc : Coherent c s mem) : Coherent c (afterHit s p w repl) mem := by
  constructor
  · intro q hq hv
    rw [afterHit_pte] at hv ⊢
    rw [afterHit_physicalMem]
    exact hc.resident q hq hv
  · intro q hq hd
    rw [afterHit_pte] at hd
    rw [afterHit_swap]
    exact hc.clean q hq fun hv => (Bool.or_eq_false_iff.mp (hd hv)).1

lemma Coherent.fill (ht : Tables c s) (hc : Coherent c s mem) (hp : c.HasPage p)
    (hv : (s.pte p).valid = false) :
    Coherent c (loadPage (countMiss s repl (s.nextFreeFrame + 1)) p.pid p.VPN w s.nextFreeFrame)
      mem := by
  have hswap : s.swap p = mem p := hc.clean p hp fun h => by simp [hv] at h
  constructor
  · intro q hq hqv
    rw [loadPage_physicalMem]
    by_cases hqp : q = p
    · rw [hqp, loadPage_pte, if_pos rfl, Function.update_self]
      exact hswap
    · rw [loadPage_pte, if_neg hqp, countMiss_pte] at hqv ⊢
      have hlt := (ht.valid q hq hqv).2.1
      rw [Function.update_of_ne (ne_of_lt hlt)]
      exact hc.resident q hq hqv
  · intro q hq hd
    rw [loadPage_swap]
    by_cases hqp : q = p
    · rw [hqp]
      exact hswap
    · rw [loadPage_pte, if_neg hqp, countMiss_pte] at hd
      exact hc.clean q hq hd

lemma Coherent.evict {f : ℤ} (ht : Tables c s) (hc : Coherent c s mem) (hp : c.HasPage p)
    (hv : (s.pte p).valid = false) (h0 : 0 ≤ f) (hf : f < s.nextFreeFrame) :
    Coherent c (loadPage (evictPage (countMiss s repl s.nextFreeFrame) f) p.pid p.VPN w f) mem := by
  obtain ⟨hip, hiv, hif⟩ := ht.frame f h0 hf
  have hswap : s.swap p = mem p := hc.clean p hp fun h => by simp [hv] at h
  have hpi : p ≠ s.invertedPageTable f := (ht.page_ne hv h0 hf).symm
  have hswap' : (evictPage (countMiss s repl s.nextFreeFrame) f).swap p = s.swap p := by
    rw [evictPage_swap, countMiss_invertedPageTable, if_neg fun h => hpi h.1, countMiss_swap]
  constructor
  · intro q hq hqv
    rw [loadPage_physicalMem]
    by_cases hqp : q = p
    · rw [hqp, loadPage_pte, if_pos rfl, Function.update_self, hswap', hswap]
    · rw [loadPage_pte, if_neg hqp, evictPage_pte, countMiss_pte, countMiss_invertedPageTable]
        at hqv ⊢
      split_ifs at hqv ⊢ with hqi
      have hne : (s.pte q).PFN ≠ f := by
        intro he
        apply hqi
        rw [← (ht.valid q hq hqv).2.2, he]
      rw [Function.update_of_ne hne, evictPage_physicalMem]
      exact hc.resident q hq hqv
  · intro q hq hd
    rw [loadPage_swap]
    by_cases hqp : q = p
    · rw [hqp, hswap', hswap]
    · rw [loadPage_pte, if_neg hqp, evictPage_pte, countMiss_pte, countMiss_invertedPageTable] at hd
      rw [evictPage_swap, countMiss_invertedPageTable, countMiss_pte, countMiss_physicalMem,
        countMiss_swap]
      by_cases hqi : q = s.invertedPageTable f
      · -- the victim: written back if dirty, already on the disk otherwise
        by_cases hqd : (s.pte q).dirty = true
        · rw [if_pos ⟨hqi, hqd⟩, ← hc.resident q hq (hqi ▸ hiv), hqi, hif]
        · rw [if_neg fun h => hqd h.2]
          exact hc.clean q hq fun _ => by simpa using hqd
      · rw [if_neg fun h => hqi h.1]
        rw [if_neg hqi] at hd
        exact hc.clean q hq hd

theorem Access.coherent {s' : VM} {f : ℤ} {b : Bool} (ht : Tables c s) (hc : Coherent c s mem)
    (hp : c.HasPage p) (ha : Access c s p w f b s') : Coherent c s' mem := by
  cases ha with
  | hit hv hr => exact hc.hit
  | fill hv hn hr => exact hc.fill ht hp hv
  | evict hv hn hr h0 hf => exact hc.evict ht hp hv h0 (by omega)

lemma Access.dirty {s' : VM} {f : ℤ} {b : Bool} (ha : Access c s p 'W' f b s') :
    (s'.pte p).dirty = true := by
  cases ha with
  | hit hv hr => simp [afterHit_pte]
  | fill hv hn hr => simp [loadPage_pte]
  | evict hv hn hr h0 hf => simp [loadPage_pte]

/-- The accessed frame holds the byte of the flat memory, and keeps holding it after the request. -/
theorem Access.finish_coherent {s' : VM} {r : Request} {f : ℤ} {b : Bool} (ht : Tables c s)
    (hc : Coherent c s mem) (hp : c.HasPage r.page) (ha : Access c s r.page r.reqType f b s') :
    s'.physicalMem f = mem r.page ∧ Coherent c (finish s' r f) (flatStep mem r) := by
  obtain ⟨-, -, hpte, hipt⟩ := ha.resident ht hp
  have ht' := ha.tables ht hp
  have hc' := ha.coherent ht hc hp
  have hPFN : (s'.pte r.page).PFN = f := by rw [hpte]
  have hv : (s'.pte r.page).valid = true := by rw [hpte]
  refine ⟨by rw [← hPFN]; exact hc'.resident _ hp hv, ?_⟩
  by_cases hw : r.reqType = 'W'
  · rw [hw] at ha
    have hphys : (finish s' r f).physicalMem = Function.update s'.physicalMem f r.byte := by
      rw [finish_frame]
      exact if_pos hw
    rw [flatStep, if_pos hw]
    constructor
    · intro q hq hqv
      rw [finish_pte] at hqv ⊢
      rw [hphys]
      by_cases hqp : q = r.page
      · rw [hqp, hPFN, Function.update_self, Function.update_self]
      · have hne : (s'.pte q).PFN ≠ f := by
          intro he
          apply hqp
          rw [← (ht'.valid q hq hqv).2.2, he, hipt]
        rw [Function.update_of_ne hne, Function.update_of_ne hqp]
        exact hc'.resident q hq hqv
    · intro q hq hd
      rw [finish_pte] at hd
      rw [finish_swap]
      by_cases hqp : q = r.page
      · have hclean := hd (hqp ▸ hv)
        rw [hqp, ha.dirty] at hclean
        exact absurd hclean (by decide)
      · rw [Function.update_of_ne hqp]
        exact hc'.clean q hq hd
  · rw [finish, if_neg hw, flatStep, if_neg hw]
    exact hc'

/-- The replies of a run agree with the flat memory, as far as the run gets. -/
theorem run_replies {rs : List Request} (hrs : ∀ r ∈ rs, c.InRange r) (hi : Inv c s)
    (hc : Coherent c s mem) {i : ℕ} {reply : Reply} (hreply : (run c s rs).1[i]? = some reply) :
    ∃ r a hit, rs[i]? = some r ∧
      reply = if r.reqType = 'R' then .read a ((rs.take i).foldl flatStep mem r.page) hit
        else .written a r.byte hit := by
  induction rs generalizing s mem i with
  | nil => simp [run] at hreply
  | cons r rs ih =>
    have hr := hrs r List.mem_cons_self
    rcases serve_in_range hi hr with ⟨f, b, s₁, ha, hserve⟩ | ⟨-, -, herr⟩
    · obtain ⟨hmem, hc₁⟩ := ha.finish_coherent hi.tables hc hr.hasPage
      rw [run, hserve] at hreply
      simp only [replyOf_exits] at hreply
      cases i with
      | zero =>
        obtain rfl : replyOf s₁ r f b = reply := by simpa using hreply
        refine ⟨r, f <<< (8 : ℕ) + r.offset, some b, rfl, ?_⟩
        rw [replyOf, hmem]
        rfl
      | succ i =>
        simp only [List.getElem?_cons_succ, List.take_succ_cons, List.foldl_cons]
        exact ih (fun q hq => hrs q (List.mem_cons_of_mem _ hq))
          ((ha.inv hi hr.hasPage).finish r f) hc₁ (by simpa using hreply)
    · rw [run, herr] at hreply
      simp at hreply

/-- Every read that completes returns the latest byte written to its page, and `'A'`
before the first write; and every request completes, unless LRU runs on one frame. -/
theorem paging_transparent (c : Config) (junk : VM) (rs : List Request)
    (hrs : ∀ r ∈ rs, c.InRange r) :
    (∀ (i : ℕ) (a : ℤ) (byte : UInt8) (hit : Option Bool),
      (run c (start c junk) rs).1[i]? = some (.read a byte hit) →
        ∃ r, rs[i]? = some r ∧ r.reqType = 'R' ∧ byte = lastWritten (rs.take i) r.page) ∧
    ((c.replacementPolicy = .LRU → 2 ≤ c.maxPFN) →
      ∀ (i : ℕ) (r : Request), rs[i]? = some r → r.reqType = 'R' →
        ∃ a hit, (run c (start c junk) rs).1[i]? =
          some (.read a (lastWritten (rs.take i) r.page) hit)) := by
  have hi := inv_start c junk
  have hc := coherent_start c junk
  constructor
  · intro i a byte hit hreply
    obtain ⟨r, a', hit', hr, heq⟩ := run_replies hrs hi hc hreply
    rw [foldl_flatStep] at heq
    split_ifs at heq with hR
    obtain ⟨-, rfl, -⟩ := Reply.read.inj heq
    exact ⟨r, hr, hR, rfl⟩
  · intro hl i r hr hR
    have hlt : i < (run c (start c junk) rs).1.length := by
      rw [run_length hl hrs hi]
      exact (List.getElem?_eq_some_iff.mp hr).1
    obtain ⟨q, a, hit, hq, heq⟩ := run_replies hrs hi hc (List.getElem?_eq_getElem hlt)
    obtain rfl : r = q := Option.some.inj (hr.symm.trans hq)
    rw [if_pos hR, foldl_flatStep] at heq
    exact ⟨a, hit, by rw [List.getElem?_eq_getElem hlt, heq]⟩

/-- The last request reads back what the first one wrote, after its page was swapped out. -/
theorem paging_transparent_threePages :
    ∃ a hit, (run (twoFrames .CLOCK) (start (twoFrames .CLOCK) default) threePages).1[3]? =
      some (.read a 66 hit) :=
  (paging_transparent (twoFrames .CLOCK) default threePages (by decide)).2
    (fun h => absurd h (by decide)) 3 ⟨0, 'R', 0, 0⟩ (by decide) (by decide)

end OsProjects.Paging
