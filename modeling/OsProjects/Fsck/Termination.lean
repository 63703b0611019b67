import OsProjects.Fsck.Rebuild

/-!
# When `correct` ends

The traversal keeps no set of directories it has seen, so it goes down every way there is
in the graph of directories.  It ends exactly when this graph has no cycle, all that it
reads is in range, and what waits on the stack on a way down leaves room.
-/

namespace OsProjects.Fsck
open FileSys Worklist

/-! ## The graph of directories -/

/-- The block of the directory `x` can be read. -/
def Readable (s : FS) (x : ℤ) : Prop := 0 ≤ (s.inode x).direct 0 ∧ (s.inode x).direct 0 < maxBlock

instance (s : FS) (x : ℤ) : Decidable (Readable s x) := inferInstanceAs (Decidable (_ ∧ _))

/-- The directories on the image that are entered from `x`. -/
def subdirs (s : FS) (x : ℤ) : List ℤ := if Readable s x then childDirs s x else []

/-- The directories unfold from the root to a finite tree that fits into the stack. -/
structure Unfolds (s : FS) : Prop where
  root_range : 0 ≤ root s ∧ root s < maxInode
  root_readable : Readable s (root s)
  entriesOk : ∀ x, Reach (subdirs s) (root s) x → Readable s x → EntriesOk (dirOf s x)
  /-- Where the last one cannot be read, its parent is listed in its place. -/
  last_readable : ∀ x, Reach (subdirs s) (root s) x → ∀ y, (subdirs s x).getLast? = some y →
    Readable s y
  acyclic : ∀ x, Reach (subdirs s) (root s) x → ¬ Relation.TransGen (fun x y => y ∈ subdirs s x) x x
  room : ∀ x n, Waits (subdirs s) (root s) x n → n + (subdirs s x).length ≤ 5000

/-- The directory `x` is in order, as far as its own block and the last directory on it go. -/
def InOrder (s : FS) (x : ℤ) : Prop :=
  (0 ≤ x ∧ x < maxInode) ∧ (Readable s x → EntriesOk (dirOf s x)) ∧
    ∀ y ∈ (subdirs s x).getLast?, Readable s y

instance (s : FS) (x : ℤ) : Decidable (InOrder s x) := inferInstanceAs (Decidable (_ ∧ _ ∧ _))

lemma inOrder_finite (s : FS) : {x | InOrder s x}.Finite := by
  apply (Set.finite_Ico (0 : ℤ) maxInode).subset
  exact fun x hx => hx.1

lemma mem_subdirs {s : FS} {x y : ℤ} (h : y ∈ subdirs s x) : Readable s x ∧ y ∈ childDirs s x := by
  unfold subdirs at h
  split_ifs at h with hread
  · exact ⟨hread, h⟩
  · exact absurd h List.not_mem_nil

/-- What is in order everywhere is in range everywhere. -/
lemma unfolds_iff {s : FS} (hroot : Readable s (root s)) :
    Unfolds s ↔ Ends (onGraph (InOrder s) (subdirs s)) 5000 () [root s] () := by
  rw [ends_onGraph_iff (inOrder_finite s)]
  constructor
  · intro h
    have hrange : ∀ x, Reach (subdirs s) (root s) x → 0 ≤ x ∧ x < maxInode := by
      intro x hx
      cases hx with
      | refl => exact h.root_range
      | tail hp hx =>
        obtain ⟨hread, hmem⟩ := mem_subdirs hx
        obtain ⟨e, he, rfl⟩ := List.mem_map.mp hmem
        exact (h.entriesOk _ hp hread).2 e (List.mem_filter.mp he).1
    exact ⟨fun x hx => ⟨hrange x hx, h.entriesOk x hx, h.last_readable x hx⟩, h.acyclic, h.room⟩
  · rintro ⟨hok, hacyclic, hroom⟩
    exact { root_range := (hok _ .refl).1, root_readable := hroot,
            entriesOk := fun x hx => (hok x hx).2.1, last_readable := fun x hx => (hok x hx).2.2,
            acyclic := hacyclic, room := hroom }

/-! ## The listings -/

/-- The listing of the directory `x`, and the directories on it in order.  If its block cannot be
read, `den` still holds the listing read before. -/
def listing (s : FS) (den : Dentry) (x : ℤ) : Option (Dentry × List ℤ) :=
  if 0 ≤ x ∧ x < maxInode then
    let d := (s.inode x).direct 0
    let den := if d < 0 ∨ d ≥ maxBlock then den else Dentry.ofBlock (s.disk d)
    if EntriesOk den then some (den, children s den) else none
  else none

section Listing
variable {indirMap : Block} {s : FS} {den : Dentry} {x y : ℤ} {cap : ℕ} {rest xs : List ℤ}

lemma expand_mapsOnly {st st' : FS × Dentry} {x : ℤ} {found : List ℤ}
    (h : expand indirMap st x = some (st', found)) : MapsOnly st.1 st'.1 := by
  unfold expand at h
  dsimp only at h
  split_ifs at h
  obtain ⟨rfl, -⟩ := Prod.mk.inj (Option.some.inj h)
  exact (MapsOnly.readDiskBlock _ _ _).trans (MapsOnly.foldl (mark_mapsOnly indirMap) _ _)

/-- How the traversal goes on is decided by the listings. -/
lemma listing_expand (st : FS × Dentry) (x : ℤ) (h : MapsOnly s st.1) :
    listing s st.2 x = (expand indirMap st x).map fun r => (r.1.2, r.2) := by
  have hinode := h.inode
  have hdisk := h.disk
  have hsame : ∀ den, children st.1 den = children s den := children_congr hinode
  unfold listing expand readDiskBlock readInode
  dsimp only
  rw [hinode, hdisk]
  by_cases hx : 0 ≤ x ∧ x < maxInode
  · rw [if_pos hx, if_pos hx]
    by_cases hd : (s.inode x).direct 0 < 0 ∨ (s.inode x).direct 0 ≥ maxBlock
    · rw [if_pos hd, if_pos hd]
      dsimp only
      rw [Dentry.ofBlock_toBlock]
      split_ifs
      · exact congrArg (fun l => some (st.2, l)) (hsame _).symm
      · rfl
    · rw [if_neg hd, if_neg hd]
      dsimp only
      split_ifs
      · exact congrArg (fun l => some (_, l)) (hsame _).symm
      · rfl
  · rw [if_neg hx, if_neg hx]
    rfl

/-- What `den` holds when `x` has been taken. -/
def listed (s : FS) (den : Dentry) (x : ℤ) : Dentry := if Readable s x then dirOf s x else den

lemma listing_eq (s : FS) (den : Dentry) (x : ℤ) : listing s den x =
    if (0 ≤ x ∧ x < maxInode) ∧ EntriesOk (listed s den x) then
      some (listed s den x, children s (listed s den x)) else none := by
  have hlisted : (if (s.inode x).direct 0 < 0 ∨ (s.inode x).direct 0 ≥ maxBlock then den
      else Dentry.ofBlock (s.disk ((s.inode x).direct 0))) = listed s den x := by
    unfold listed
    by_cases hread : Readable s x
    · rw [if_pos hread, if_neg (by have := hread.1; have := hread.2; omega)]
      rfl
    · have hout : (s.inode x).direct 0 < 0 ∨ (s.inode x).direct 0 ≥ maxBlock := by
        unfold Readable at hread
        omega
      rw [if_neg hread, if_pos hout]
  unfold listing
  dsimp only
  rw [hlisted]
  by_cases hx : 0 ≤ x ∧ x < maxInode
  · rw [if_pos hx, if_congr (and_iff_right hx) rfl rfl]
  · rw [if_neg hx, if_neg fun h => hx h.1]

lemma listing_some {found : List ℤ} {den' : Dentry} (h : listing s den x = some (den', found)) :
    (0 ≤ x ∧ x < maxInode) ∧ EntriesOk (listed s den x) ∧ den' = listed s den x ∧
      found = children s (listed s den x) := by
  rw [listing_eq] at h
  split_ifs at h with hok
  obtain ⟨hden, hfound⟩ := Prod.mk.inj (Option.some.inj h)
  exact ⟨hok.1, hok.2, hden.symm, hfound.symm⟩

/-- Taking the next element will not list an old directory again: it can be read, or there are no
directories in `den`. -/
def Settled (s : FS) (den : Dentry) (stack : List ℤ) : Prop :=
  (∀ x ∈ stack.head?, Readable s x) ∨ (EntriesOk den ∧ children s den = [])

lemma Settled.children_eq (h : Settled s den (x :: rest)) :
    children s (listed s den x) = subdirs s x := by
  unfold listed subdirs
  split_ifs with hread
  · rfl
  · rcases h with h | h
    · exact absurd (h x rfl) hread
    · exact h.2

lemma Settled.entriesOk_iff (h : Settled s den (x :: rest)) :
    EntriesOk (listed s den x) ↔ (Readable s x → EntriesOk (dirOf s x)) := by
  unfold listed
  split_ifs with hread
  · exact ⟨fun h _ => h, fun h => h hread⟩
  · rcases h with h | h
    · exact absurd (h x rfl) hread
    · exact iff_of_true h.1 fun hx => absurd hx hread

/-- After a directory whose last one can be read. -/
lemma Settled.next (h : Settled s den (x :: rest)) (hok : InOrder s x) :
    Settled s (listed s den x) ((subdirs s x).reverse ++ rest) := by
  rcases hlast : (subdirs s x).getLast? with _ | y
  · refine Or.inr ⟨h.entriesOk_iff.mpr hok.2.1, ?_⟩
    rw [h.children_eq]
    exact List.getLast?_eq_none_iff.mp hlast
  · refine Or.inl fun z hz => hok.2.2 z ?_
    rw [List.head?_append, List.head?_reverse, hlast] at hz
    rw [hlast]
    exact hz

/-- A directory that cannot be read and stands last on the listing in `den` is found again and
again. -/
lemma not_ends_of_last (hread : ¬ Readable s y) (hlast : (children s den).getLast? = some y)
    {t : Dentry} : ¬ Ends (listing s) cap den (y :: rest) t := by
  intro h
  generalize hxs : y :: rest = xs at h
  induction h generalizing rest with
  | nil => cases hxs
  | @cons den _ _ _ _ _ hvisit _ _ ih =>
    obtain ⟨rfl, rfl⟩ := List.cons.inj hxs
    obtain ⟨-, -, rfl, rfl⟩ := listing_some hvisit
    rw [listed, if_neg hread] at ih
    obtain ⟨before, hbefore⟩ := List.getLast?_eq_some_iff.mp hlast
    have hnext : (children s den).reverse ++ rest = y :: (before.reverse ++ rest) := by
      rw [hbefore, List.reverse_append, List.reverse_singleton, List.singleton_append,
        List.cons_append]
    exact ih hlast hnext.symm

/-- The listings follow the graph of directories. -/
lemma Ends.onGraph {t : Dentry} (h : Ends (listing s) cap den xs t) (hs : Settled s den xs) :
    Ends (onGraph (InOrder s) (subdirs s)) cap () xs () := by
  induction h with
  | nil => exact .nil ()
  | @cons den _ t x found rest hvisit hroom hrest ih =>
    obtain ⟨hrange, hok, rfl, hfound⟩ := listing_some hvisit
    rw [hs.children_eq] at hfound
    subst hfound
    have hin : InOrder s x := by
      refine ⟨hrange, hs.entriesOk_iff.mp hok, fun y hy => ?_⟩
      by_contra hread
      obtain ⟨before, hbefore⟩ := List.getLast?_eq_some_iff.mp hy
      rw [hbefore, List.reverse_append, List.reverse_singleton, List.singleton_append,
        List.cons_append] at hrest
      exact not_ends_of_last hread (by rw [hs.children_eq]; exact hy) hrest
    exact .cons (if_pos hin) hroom (ih (hs.next hin))

lemma exists_ends_listing {u v : Unit} (h : Ends (onGraph (InOrder s) (subdirs s)) cap u xs v)
    (hs : Settled s den xs) : ∃ t, Ends (listing s) cap den xs t := by
  induction h generalizing den with
  | nil => exact ⟨den, .nil den⟩
  | @cons _ _ _ x found rest hvisit hroom _ ih =>
    unfold Worklist.onGraph at hvisit
    split_ifs at hvisit with hin
    obtain ⟨-, rfl⟩ := Prod.mk.inj (Option.some.inj hvisit)
    obtain ⟨t, hends⟩ := ih (hs.next hin)
    refine ⟨t, .cons ?_ hroom hends⟩
    rw [listing_eq, if_pos ⟨hin.1, hs.entriesOk_iff.mpr hin.2.1⟩, hs.children_eq]

end Listing

/-! ## The `while` loop -/

/-- The `while` loop ends within its array exactly when the listings do. -/
lemma whileLoop_ends_iff (junk : Junk) (s : FS) :
    (∃ fuel w, whileLoop junk.buf fuel (startLocals junk s) = .ok w) ↔
      ∃ t, Ends (listing s) 5000 junk.dir [root s] t := by
  have hpart : ∀ (st : FS × Dentry) x, MapsOnly s st.1 →
      listing s st.2 x = (expand junk.buf st x).map fun r => (r.1.2, r.2) := listing_expand
  have hkeep : ∀ (st : FS × Dentry) x st' found, MapsOnly s st.1 →
      expand junk.buf st x = some (st', found) → MapsOnly s st'.1 := fun st x st' found hst h =>
    hst.trans (expand_mapsOnly h)
  have hstart : MapsOnly s (clearMaps s, junk.dir).1 := MapsOnly.clearMaps s
  constructor
  · rintro ⟨fuel, w, hrun⟩
    have hends := whileLoop_ends (startLocals_bounded junk s) hrun
    rw [stack_startLocals] at hends
    exact ⟨w.den, Ends.part (π := Prod.snd) hpart hkeep hstart hends⟩
  · rintro ⟨den', h⟩
    obtain ⟨t, hends, -⟩ := Ends.of_part (π := Prod.snd) hpart hkeep hstart h
    obtain ⟨fuel, w, hrun, -⟩ := exists_whileLoop (w := startLocals junk s) hends
      (startLocals_bounded junk s) rfl (stack_startLocals junk s)
    exact ⟨fuel, w, hrun⟩

/-- From a root that can be read the loop ends exactly when the directories unfold. -/
lemma whileLoop_unfolds_iff {s : FS} (hroot : Readable s (root s)) (junk : Junk) :
    (∃ fuel w, whileLoop junk.buf fuel (startLocals junk s) = .ok w) ↔ Unfolds s := by
  have hs : Settled s junk.dir [root s] := by
    refine Or.inl fun x hx => ?_
    rw [← Option.some.inj hx]
    exact hroot
  rw [whileLoop_ends_iff, unfolds_iff hroot]
  constructor
  · rintro ⟨t, hends⟩
    exact Ends.onGraph hends hs
  · exact fun h => exists_ends_listing h hs

/-- A tree of directories unfolds. -/
theorem TreeImage.unfolds {s : FS} (h : TreeImage s) : Unfolds s := by
  obtain ⟨fuel, w, hrun, -⟩ := h.rebuild Junk.zero
  exact (whileLoop_unfolds_iff (h.dirBlock_range _ .refl) Junk.zero).mp ⟨fuel, w, hrun⟩

/-- A listing with more entries than there is room for. -/
def overfull : Dentry := { FS.zero.curDir with numEntry := 22 }

/-- What `den` happens to hold is listed for a root that cannot be read. -/
lemma not_whileLoop_overfull {s : FS} (hroot : ¬ Readable s (root s)) {junk : Junk}
    (hdir : junk.dir = overfull) :
    ¬ ∃ fuel w, whileLoop junk.buf fuel (startLocals junk s) = .ok w := by
  intro h
  obtain ⟨t, hends⟩ := (whileLoop_ends_iff junk s).mp h
  cases hends with
  | cons hvisit _ _ =>
    have hnot : ¬ EntriesOk overfull := fun hok => absurd hok.1 (by decide)
    obtain ⟨-, hok, -, -⟩ := listing_some hvisit
    rw [listed, if_neg hroot, hdir] at hok
    exact hnot hok

/-- Where the bitmaps are to be rebuilt, `correct` ends exactly when its loop does. -/
lemma correct_ends_of_disagree {s : FS} (hbad : countersAgree s = false) (junk : Junk) :
    (∃ fuel s', correct junk fuel s = .ok s') ↔
      ∃ fuel w, whileLoop junk.buf fuel (startLocals junk s) = .ok w := by
  unfold correct
  rw [hbad]
  simp only [Bool.false_eq_true, if_false]
  constructor
  · rintro ⟨fuel, s', h⟩
    cases hrun : whileLoop junk.buf fuel (startLocals junk s) with
    | error e =>
      rw [hrun] at h
      cases h
    | ok w => exact ⟨fuel, w, hrun⟩
  · rintro ⟨fuel, w, hrun⟩
    exact ⟨fuel, w.fs, by rw [hrun]; rfl⟩

/-- `correct` ends, with its index within `dir[5000]` and whatever its locals hold at first, exactly
when there is nothing to do or the directories unfold from the root. -/
theorem correct_ends_iff (s : FS) :
    (∀ junk, ∃ fuel s', correct junk fuel s = .ok s') ↔ countersAgree s = true ∨ Unfolds s := by
  cases hagree : countersAgree s with
  | true =>
    refine ⟨fun _ => Or.inl rfl, fun _ junk => ⟨0, s, ?_⟩⟩
    unfold correct
    rw [if_pos hagree]
  | false =>
    have hends : ∀ junk, (∃ fuel s', correct junk fuel s = .ok s') ↔
        ∃ fuel w, whileLoop junk.buf fuel (startLocals junk s) = .ok w :=
      correct_ends_of_disagree hagree
    simp only [hends, Bool.false_eq_true, false_or]
    constructor
    · intro h
      by_cases hroot : Readable s (root s)
      · exact (whileLoop_unfolds_iff hroot Junk.zero).mp (h Junk.zero)
      · exact absurd (h { Junk.zero with dir := overfull }) (not_whileLoop_overfull hroot rfl)
    · exact fun h junk => (whileLoop_unfolds_iff h.root_readable junk).mpr h

/-! ## A directory that is reached in two ways -/

/-- A new disk after `mkdir d` and `ln d e`. -/
def secondName : FS :=
  runCommands [(Junk.zero, ⟨str "mkdir", Word.d, Word.none, 1⟩),
    (Junk.zero, ⟨str "ln", Word.d, Word.e, 2⟩)] mounted

/-- Its image, when the bitmaps are lost and it is mounted again. -/
def secondNameLost : FS := loaded (lostImage secondName)

lemma root_secondNameLost : root secondNameLost = 0 := by
  have hsuper : secondNameLost.superBlock = secondName.superBlock :=
    loaded_lost_superBlock (by decide +kernel) (by decide +kernel)
  rw [root, hsuper]
  decide +kernel

lemma inode_secondNameLost {i : ℤ} (h0 : 0 ≤ i) (hi : i < maxInode) :
    secondNameLost.inode i = secondName.inode i := by
  unfold secondNameLost
  exact loaded_lost_inode (by decide +kernel) (by decide +kernel) h0 hi

lemma readable_secondNameLost {x : ℤ} (hx : x = 0 ∨ x = 1) : Readable secondNameLost x := by
  unfold Readable
  rcases hx with rfl | rfl
  · rw [inode_secondNameLost (by decide) (by decide)]
    decide +kernel
  · rw [inode_secondNameLost (by decide) (by decide)]
    decide +kernel

lemma entriesOk_secondName {x : ℤ} (hx : x = 0 ∨ x = 1) :
    EntriesOk (FileSys.dirAt secondName x) := by
  rcases hx with rfl | rfl
  · decide +kernel
  · decide +kernel

lemma dirOf_secondNameLost {x : ℤ} (hx : x = 0 ∨ x = 1) :
    dirOf secondNameLost x = FileSys.dirAt secondName x := by
  rcases hx with rfl | rfl
  · exact dirOf_lost (by decide +kernel) (by decide +kernel) (by decide) (by decide)
      (by decide +kernel)
  · exact dirOf_lost (by decide +kernel) (by decide +kernel) (by decide) (by decide)
      (by decide +kernel)

/-- The root lists the directory twice. -/
lemma subdirs_root_secondNameLost : subdirs secondNameLost 0 = [1, 1] := by
  have hchildren : children secondName (FileSys.dirAt secondName 0) = [1, 1] := by decide +kernel
  rw [subdirs, if_pos (readable_secondNameLost (Or.inl rfl)), ← hchildren]
  exact childDirs_lost (by decide +kernel) (by decide +kernel) (by decide) (by decide)
    (by decide +kernel) (entriesOk_secondName (Or.inl rfl))

lemma subdirs_d_secondNameLost : subdirs secondNameLost 1 = [] := by
  have hchildren : children secondName (FileSys.dirAt secondName 1) = [] := by decide +kernel
  rw [subdirs, if_pos (readable_secondNameLost (Or.inr rfl)), ← hchildren]
  exact childDirs_lost (by decide +kernel) (by decide +kernel) (by decide) (by decide)
    (by decide +kernel) (entriesOk_secondName (Or.inr rfl))

lemma mem_subdirs_secondNameLost {x y : ℤ} (hx : x = 0 ∨ x = 1)
    (hy : y ∈ subdirs secondNameLost x) : x = 0 ∧ y = 1 := by
  rcases hx with rfl | rfl
  · rw [subdirs_root_secondNameLost] at hy
    simp only [List.mem_cons, List.not_mem_nil, or_false, or_self] at hy
    exact ⟨rfl, hy⟩
  · rw [subdirs_d_secondNameLost] at hy
    exact absurd hy List.not_mem_nil

lemma waits_d_secondNameLost {x : ℤ} {n : ℕ} (h : Waits (subdirs secondNameLost) 1 x n) :
    x = 1 ∧ n = 0 := by
  cases h with
  | here => exact ⟨rfl, rfl⟩
  | under hfound _ =>
    rw [subdirs_d_secondNameLost] at hfound
    cases hfound

lemma secondNameLost_unfolds : Unfolds secondNameLost := by
  have hreach : ∀ x, Reach (subdirs secondNameLost) (root secondNameLost) x → x = 0 ∨ x = 1 := by
    rw [root_secondNameLost]
    intro x hx
    induction hx with
    | refl => exact Or.inl rfl
    | tail _ hy ih => exact Or.inr (mem_subdirs_secondNameLost ih hy).2
  constructor
  · rw [root_secondNameLost]
    decide
  · rw [root_secondNameLost]
    exact readable_secondNameLost (Or.inl rfl)
  · intro x hx _
    rw [dirOf_secondNameLost (hreach x hx)]
    exact entriesOk_secondName (hreach x hx)
  · intro x hx y hy
    have hmem := mem_subdirs_secondNameLost (hreach x hx) (List.mem_of_getLast? hy)
    exact readable_secondNameLost (Or.inr hmem.2)
  · intro x hx hcycle
    obtain ⟨y, hy, hback⟩ := Relation.TransGen.head'_iff.mp hcycle
    obtain ⟨rfl, rfl⟩ := mem_subdirs_secondNameLost (hreach x hx) hy
    -- nothing is entered from `d`
    rcases Relation.ReflTransGen.cases_head hback with h | ⟨z, hz, -⟩
    · cases h
    · exact absurd (mem_subdirs_secondNameLost (Or.inr rfl) hz).1 (by decide)
  · intro x n hwaits
    rw [root_secondNameLost] at hwaits
    cases hwaits with
    | here =>
      rw [subdirs_root_secondNameLost]
      decide
    | under hfound hwaits =>
      obtain ⟨-, rfl⟩ := mem_subdirs_secondNameLost (Or.inl rfl) (List.mem_of_getElem? hfound)
      obtain ⟨rfl, rfl⟩ := waits_d_secondNameLost hwaits
      obtain ⟨hlt, -⟩ := List.getElem?_eq_some_iff.mp hfound
      rw [subdirs_root_secondNameLost, List.length_cons, List.length_singleton] at hlt
      rw [subdirs_d_secondNameLost, List.length_nil]
      omega

/-- `fsck` ends on a disk where a directory has two names. -/
theorem correct_ends_secondName : subdirs secondNameLost 0 = [1, 1] ∧
    ∀ junk, ∃ fuel s', correct junk fuel secondNameLost = .ok s' :=
  ⟨subdirs_root_secondNameLost,
    (correct_ends_iff secondNameLost).mpr (Or.inr secondNameLost_unfolds)⟩

/-! ## A link to the root in the root -/

/-- The root after `ln . x`. -/
def selfLinked : FS :=
  runCommands [(Junk.zero, ⟨str "ln", Word.dot, Word.x, 2⟩)] mounted

/-- The root lists itself, under another name than `.`. -/
lemma mem_subdirs_selfLinked : (0 : ℤ) ∈ subdirs (loaded (lostImage selfLinked)) 0 := by
  have hge : firstDataBlock ≤ selfLinked.curDirBlock := by decide +kernel
  have hlt : selfLinked.curDirBlock < maxBlock := by decide +kernel
  have hread : Readable (loaded (lostImage selfLinked)) 0 := by
    unfold Readable
    rw [loaded_lost_inode hge hlt le_rfl (by decide)]
    decide +kernel
  rw [subdirs, if_pos hread, childDirs_lost hge hlt le_rfl (by decide) (by decide +kernel)
    (by decide +kernel)]
  decide +kernel

/-- `fsck` does not end on a disk where `ln . x` was the only command. -/
theorem correct_endless : ¬ ∀ (lines : List (Junk × Line)) (junk : Junk) (inodeMap blockMap : Block)
    (s : FS), fsMount (withMaps (fsUmount junk (runCommands lines fsMountNew)).disk inodeMap
      blockMap) = some s → ∀ junk, ∃ fuel s', correct junk fuel s = .ok s' := by
  intro h
  have hge : firstDataBlock ≤ selfLinked.curDirBlock := by decide +kernel
  have hlt : selfLinked.curDirBlock < maxBlock := by decide +kernel
  have hsuper := loaded_lost_superBlock hge hlt
  have hmagic : (SuperBlock.ofBlock (lostImage selfLinked 0)).magicNumber = 0x1234FFFF := by
    rw [lostImage_zero hge hlt, SuperBlock.ofBlock_toBlock]
    decide +kernel
  have hroot : root (loaded (lostImage selfLinked)) = 0 := by
    rw [root, hsuper]
    decide +kernel
  rw [fsMountNew_eq] at h
  have hends : ∃ fuel s', correct Junk.zero fuel (loaded (lostImage selfLinked)) = .ok s' :=
    h _ Junk.zero _ _ _ (fsMount_eq hmagic) Junk.zero
  have hmem := mem_subdirs_selfLinked
  rw [correct_ends_of_disagree (lost_disagrees hge hlt (by decide +kernel)),
    whileLoop_unfolds_iff (by rw [hroot]; exact (mem_subdirs hmem).1)] at hends
  exact hends.acyclic 0 (by rw [hroot]; exact .refl) (.single hmem)

end OsProjects.Fsck
