import OsProjects.Fsck.Fix
import OsProjects.Library.Worklist

/-!
# The loops of `correct` as a traversal

What one turn of the `while` loop does is `expand`, and the loop is the traversal with
`expand` from a stack of at most 5000 elements.
-/

namespace OsProjects.Fsck
open FileSys Worklist

/-! ## Only the bitmaps change -/

/-- The functions of `fix.c` write the bitmaps, and print. -/
def MapsOnly (s s' : FS) : Prop :=
  s' = { s with inodeMap := s'.inodeMap, blockMap := s'.blockMap, stdout := s'.stdout }

namespace MapsOnly
variable {s s' s'' : FS}

lemma refl (s : FS) : MapsOnly s s := rfl

lemma trans (h : MapsOnly s s') (h' : MapsOnly s' s'') : MapsOnly s s'' := by
  unfold MapsOnly at h h' ⊢
  rw [h', h]

lemma inode (h : MapsOnly s s') : s'.inode = s.inode := by rw [h]

lemma disk (h : MapsOnly s s') : s'.disk = s.disk := by rw [h]

lemma superBlock (h : MapsOnly s s') : s'.superBlock = s.superBlock := by rw [h]

lemma foldl {α : Type} {f : FS → α → FS} (h : ∀ s a, MapsOnly s (f s a)) (l : List α) (s : FS) :
    MapsOnly s (l.foldl f s) := by
  induction l generalizing s with
  | nil => exact refl s
  | cons a l ih => exact (h s a).trans (ih _)

lemma readDiskBlock (s : FS) (b : ℤ) (buf : Block) :
    MapsOnly s (FileSys.readDiskBlock s b buf).1 := by
  unfold FileSys.readDiskBlock
  split_ifs <;> rfl

lemma setBlockMap (s : FS) (b : ℤ) (value : Bool) :
    MapsOnly s (FileSys.setBlockMap s b value) := rfl

lemma maps (s : FS) (inodeMap blockMap : ℤ → Int8) :
    MapsOnly s { s with inodeMap := inodeMap, blockMap := blockMap } := rfl

lemma clearMaps (s : FS) : MapsOnly s (clearMaps s) := by
  unfold Fsck.clearMaps
  exact maps s _ _

end MapsOnly

lemma helper_mapsOnly (indirMap : Block) (s : FS) (n : Inode) :
    MapsOnly s (helper indirMap s n) := by
  have hset : ∀ (f : ℕ → ℤ) (l : List ℕ) (s : FS),
      MapsOnly s (l.foldl (fun s j => setBlockMap s (f j) true) s) := fun f l s =>
    MapsOnly.foldl (f := fun s j => setBlockMap s (f j) true) (fun _ _ => rfl) l s
  unfold helper
  dsimp only
  split_ifs
  · apply (hset n.direct (List.range (min n.blockCount.toInt.toNat 15)) s).trans
    apply MapsOnly.trans _ (hset _ _ _)
    exact (MapsOnly.setBlockMap _ _ _).trans (MapsOnly.readDiskBlock _ _ _)
  · exact hset n.direct _ s

/-- What is done for an entry besides the stack. -/
def mark (indirMap : Block) (s : FS) (e : DirectoryEntry) : FS :=
  setInodeMap (helper indirMap s (readInode s e.inode.toInt)) e.inode.toInt true

lemma mark_mapsOnly (indirMap : Block) (s : FS) (e : DirectoryEntry) :
    MapsOnly s (mark indirMap s e) := (helper_mapsOnly indirMap s _).trans rfl

/-! ## Directories -/

def entries (d : Dentry) : List DirectoryEntry := (List.range d.count).map d.entry

/-- The entries that are put on the stack. -/
def children (s : FS) (d : Dentry) : List ℤ :=
  ((entries d).filter (isChild s)).map fun e => e.inode.toInt

/-- The entries are in the array, and the inodes they name are. -/
def EntriesOk (d : Dentry) : Prop :=
  d.count ≤ maxDirEntry ∧ ∀ e ∈ entries d, 0 ≤ e.inode.toInt ∧ e.inode.toInt < maxInode

instance (d : Dentry) : Decidable (EntriesOk d) := inferInstanceAs (Decidable (_ ∧ _))

lemma isChild_congr {s s' : FS} (h : s'.inode = s.inode) : isChild s' = isChild s := by
  funext e
  unfold isChild readInode
  rw [h]

lemma children_congr {s s' : FS} (h : s'.inode = s.inode) (d : Dentry) :
    children s' d = children s d := by
  unfold children
  rw [isChild_congr h]

/-- One turn of the `while` loop: the directory `x` is read, its entries are marked, and the
directories among them are put on the stack. -/
def expand (indirMap : Block) (st : FS × Dentry) (x : ℤ) : Option ((FS × Dentry) × List ℤ) :=
  if 0 ≤ x ∧ x < maxInode then
    let (fs, block) := readDiskBlock st.1 ((readInode st.1 x).direct 0) st.2.toBlock
    let den := Dentry.ofBlock block
    if EntriesOk den then some (((entries den).foldl (mark indirMap) fs, den), children fs den)
    else none
  else none

/-! ## The stack -/

/-- `dir[dir_p]`, ..., `dir[0]` -/
def stack (w : Locals) : List ℤ :=
  ((List.range (w.dirP + 1).toNat).map fun (k : ℕ) => w.dir k).reverse

/-- The index stays in the array. -/
def Bounded (w : Locals) : Prop := -1 ≤ w.dirP ∧ w.dirP < dirSize

lemma stack_length {w : Locals} (h : Bounded w) : ((stack w).length : ℤ) = w.dirP + 1 := by
  have hge := h.1
  rw [stack, List.length_reverse, List.length_map, List.length_range]
  omega

lemma stack_push {w : Locals} (h : Bounded w) (x : ℤ) :
    stack { w with dir := Function.update w.dir (w.dirP + 1) x, dirP := w.dirP + 1 } =
      x :: stack w := by
  have hge := h.1
  have hsucc : (w.dirP + 1 + 1).toNat = (w.dirP + 1).toNat + 1 := by omega
  have htop : (((w.dirP + 1).toNat : ℕ) : ℤ) = w.dirP + 1 := by omega
  have hrest : ∀ k ∈ List.range (w.dirP + 1).toNat,
      Function.update w.dir (w.dirP + 1) x (k : ℤ) = w.dir k := by
    intro k hk
    rw [List.mem_range] at hk
    exact Function.update_of_ne (by omega) ..
  unfold stack
  dsimp only
  rw [hsucc, List.range_succ, List.map_append, List.reverse_append, List.map_singleton,
    List.reverse_singleton, htop, Function.update_self, List.map_congr_left hrest]
  rfl

lemma stack_pop {w : Locals} (h0 : 0 ≤ w.dirP) (fs : FS) (den : Dentry) :
    stack w = w.dir w.dirP :: stack { w with fs := fs, dirP := w.dirP - 1, den := den } := by
  have hsucc : (w.dirP + 1).toNat = (w.dirP - 1 + 1).toNat + 1 := by omega
  have htop : (((w.dirP - 1 + 1).toNat : ℕ) : ℤ) = w.dirP := by omega
  unfold stack
  dsimp only
  rw [hsucc, List.range_succ, List.map_append, List.reverse_append, List.map_singleton,
    List.reverse_singleton, htop]
  rfl

/-- Nothing is left on the stack when the loop ends. -/
lemma stack_eq_nil {w : Locals} (h : w.dirP < 0) : stack w = [] := by
  have hzero : (w.dirP + 1).toNat = 0 := by omega
  rw [stack, hzero]
  rfl

/-! ## The entries of a directory -/

section Entries
variable {indirMap : Block} {w w' : Locals}

/-- What the `for` loop has done after the entries `es`. -/
structure Visited (indirMap : Block) (w : Locals) (es : List DirectoryEntry) (w' : Locals) :
    Prop where
  fs : w'.fs = es.foldl (mark indirMap) w.fs
  den : w'.den = w.den
  bounded : Bounded w'
  stack : stack w' = ((es.filter (isChild w.fs)).map fun e => e.inode.toInt).reverse ++ stack w

lemma visitEntry_ok {i : ℕ} (hw : Bounded w) (h : visitEntry indirMap w i = .ok w') :
    i < maxDirEntry ∧ 0 ≤ (w.den.entry i).inode.toInt ∧ (w.den.entry i).inode.toInt < maxInode ∧
      Visited indirMap w [w.den.entry i] w' := by
  unfold visitEntry at h
  by_cases hi : i ≥ maxDirEntry
  · rw [if_pos hi] at h
    cases h
  rw [if_neg hi] at h
  dsimp only at h
  by_cases hrange : (w.den.entry i).inode.toInt < 0 ∨ (w.den.entry i).inode.toInt ≥ maxInode
  · rw [if_pos hrange] at h
    cases h
  rw [if_neg hrange] at h
  refine ⟨by omega, by omega, by omega, ?_⟩
  by_cases hchild : isChild w.fs (w.den.entry i) = true
  · rw [if_pos hchild] at h
    unfold push at h
    by_cases hroom : w.dirP + 1 < dirSize
    · rw [if_pos hroom] at h
      cases h
      refine ⟨rfl, rfl, ⟨by have := hw.1; dsimp only; omega, hroom⟩, ?_⟩
      rw [List.filter_cons_of_pos hchild]
      exact stack_push hw _
    · rw [if_neg hroom] at h
      cases h
  · rw [if_neg hchild] at h
    cases h
    refine ⟨rfl, rfl, hw, ?_⟩
    rw [List.filter_cons_of_neg hchild]
    rfl

lemma exists_visitEntry {i : ℕ} (hw : Bounded w) (hi : i < maxDirEntry)
    (h0 : 0 ≤ (w.den.entry i).inode.toInt) (hlt : (w.den.entry i).inode.toInt < maxInode)
    (hroom : isChild w.fs (w.den.entry i) = true → (stack w).length < dirSize) :
    ∃ w', visitEntry indirMap w i = .ok w' := by
  unfold visitEntry
  rw [if_neg (by omega)]
  dsimp only
  rw [if_neg (by omega)]
  by_cases hchild : isChild w.fs (w.den.entry i) = true
  · have hlength := hroom hchild
    rw [stack_length hw] at hlength
    rw [if_pos hchild]
    unfold push
    rw [if_pos hlength]
    exact ⟨_, rfl⟩
  · rw [if_neg hchild]
    exact ⟨_, rfl⟩

lemma Visited.nil (hw : Bounded w) : Visited indirMap w [] w := ⟨rfl, rfl, hw, rfl⟩

lemma Visited.trans {w'' : Locals} {es es' : List DirectoryEntry} (h : Visited indirMap w es w')
    (h' : Visited indirMap w' es' w'') : Visited indirMap w (es ++ es') w'' where
  fs := by rw [h'.fs, h.fs, List.foldl_append]
  den := h'.den.trans h.den
  bounded := h'.bounded
  stack := by
    have hinode : w'.fs.inode = w.fs.inode := by
      rw [h.fs]
      exact (MapsOnly.foldl (mark_mapsOnly indirMap) es w.fs).inode
    rw [h'.stack, h.stack, isChild_congr hinode, List.filter_append, List.map_append,
      List.reverse_append, List.append_assoc]

lemma foldlM_ok (l : List ℕ) (hw : Bounded w)
    (h : l.foldlM (visitEntry indirMap) w = .ok w') :
    (∀ i ∈ l, i < maxDirEntry ∧ 0 ≤ (w.den.entry i).inode.toInt ∧
      (w.den.entry i).inode.toInt < maxInode) ∧ Visited indirMap w (l.map w.den.entry) w' := by
  induction l generalizing w with
  | nil =>
    cases h
    exact ⟨fun i hi => absurd hi List.not_mem_nil, .nil hw⟩
  | cons i l ih =>
    rw [List.foldlM_cons] at h
    cases hi : visitEntry indirMap w i with
    | error e =>
      rw [hi] at h
      cases h
    | ok w₁ =>
      rw [hi] at h
      obtain ⟨hlt, h0, hmax, hvisited⟩ := visitEntry_ok hw hi
      obtain ⟨hall, hrest⟩ := ih hvisited.bounded h
      rw [hvisited.den] at hall hrest
      refine ⟨?_, hvisited.trans hrest⟩
      intro j hj
      rcases List.mem_cons.mp hj with rfl | hj
      · exact ⟨hlt, h0, hmax⟩
      · exact hall j hj

lemma exists_foldlM (l : List ℕ) (hw : Bounded w)
    (hall : ∀ i ∈ l, i < maxDirEntry ∧ 0 ≤ (w.den.entry i).inode.toInt ∧
      (w.den.entry i).inode.toInt < maxInode)
    (hroom : (stack w).length + ((l.map w.den.entry).filter (isChild w.fs)).length ≤ dirSize) :
    ∃ w', l.foldlM (visitEntry indirMap) w = .ok w' := by
  induction l generalizing w with
  | nil => exact ⟨w, rfl⟩
  | cons i l ih =>
    obtain ⟨hlt, h0, hmax⟩ := hall i List.mem_cons_self
    obtain ⟨w₁, hw₁⟩ : ∃ w₁, visitEntry indirMap w i = .ok w₁ := by
      apply exists_visitEntry hw hlt h0 hmax
      intro hchild
      rw [List.map_cons, List.filter_cons_of_pos hchild, List.length_cons] at hroom
      omega
    obtain ⟨-, -, -, hvisited⟩ := visitEntry_ok hw hw₁
    have hinode : w₁.fs.inode = w.fs.inode := by
      rw [hvisited.fs]
      exact (mark_mapsOnly indirMap w.fs _).inode
    obtain ⟨w', hw'⟩ := ih hvisited.bounded
      (fun j hj => by
        rw [hvisited.den]
        exact hall j (List.mem_cons_of_mem _ hj))
      (by
        rw [hvisited.den, hvisited.stack, isChild_congr hinode, List.length_append,
          List.length_reverse, List.length_map]
        rw [List.map_cons, ← List.singleton_append, List.filter_append, List.length_append] at hroom
        omega)
    refine ⟨w', ?_⟩
    rw [List.foldlM_cons, hw₁]
    exact hw'

end Entries

/-! ## The `while` loop -/

section Loop
variable {indirMap : Block} {w w' : Locals}

lemma entriesOk_iff (d : Dentry) : EntriesOk d ↔ ∀ i ∈ List.range d.count,
    i < maxDirEntry ∧ 0 ≤ (d.entry i).inode.toInt ∧ (d.entry i).inode.toInt < maxInode := by
  constructor
  · rintro ⟨hcount, hall⟩ i hi
    refine ⟨(List.mem_range.mp hi).trans_le hcount, ?_⟩
    exact hall _ (List.mem_map.mpr ⟨i, hi, rfl⟩)
  · intro h
    refine ⟨?_, ?_⟩
    · by_contra hlt
      have := (h maxDirEntry (List.mem_range.mpr (by omega))).1
      omega
    · intro e he
      obtain ⟨i, hi, rfl⟩ := List.mem_map.mp he
      exact (h i hi).2

/-- A turn of the loop is a step of the traversal, and fails where that fails or the stack is too
small. -/
lemma visitDir_ok (hw : Bounded w) (h0 : 0 ≤ w.dirP) (h : visitDir indirMap w = .ok w') :
    ∃ rest found, stack w = w.dir w.dirP :: rest ∧
      expand indirMap (w.fs, w.den) (w.dir w.dirP) = some ((w'.fs, w'.den), found) ∧
      stack w' = found.reverse ++ rest ∧ Bounded w' := by
  unfold visitDir at h
  dsimp only at h
  by_cases hx : w.dir w.dirP < 0 ∨ w.dir w.dirP ≥ maxInode
  · rw [if_pos hx] at h
    cases h
  rw [if_neg hx] at h
  have hb : Bounded { w with
      fs := (readDiskBlock w.fs ((readInode w.fs (w.dir w.dirP)).direct 0) w.den.toBlock).1
      dirP := w.dirP - 1
      den := Dentry.ofBlock
        (readDiskBlock w.fs ((readInode w.fs (w.dir w.dirP)).direct 0) w.den.toBlock).2 } :=
    ⟨by dsimp only; omega, by have := hw.2; dsimp only; omega⟩
  obtain ⟨hall, hvisited⟩ := foldlM_ok _ hb h
  refine ⟨_, _, stack_pop h0 _ _, ?_, hvisited.stack, hvisited.bounded⟩
  unfold expand
  dsimp only
  rw [if_pos (by omega), if_pos ((entriesOk_iff _).mpr hall), hvisited.fs, hvisited.den]
  rfl

lemma exists_visitDir {st : FS × Dentry} {rest found : List ℤ} (hw : Bounded w) (h0 : 0 ≤ w.dirP)
    (hrest : stack w = w.dir w.dirP :: rest)
    (h : expand indirMap (w.fs, w.den) (w.dir w.dirP) = some (st, found))
    (hroom : rest.length + found.length ≤ 5000) :
    ∃ w', visitDir indirMap w = .ok w' := by
  unfold expand at h
  dsimp only at h
  by_cases hx : 0 ≤ w.dir w.dirP ∧ w.dir w.dirP < maxInode
  · rw [if_pos hx] at h
    by_cases hok : EntriesOk (Dentry.ofBlock
        (readDiskBlock w.fs ((readInode w.fs (w.dir w.dirP)).direct 0) w.den.toBlock).2)
    · rw [if_pos hok] at h
      have hfound := (Prod.mk.inj (Option.some.inj h)).2
      unfold visitDir
      dsimp only
      rw [if_neg (by omega)]
      have hpop := stack_pop h0
        (readDiskBlock w.fs ((readInode w.fs (w.dir w.dirP)).direct 0) w.den.toBlock).1
        (Dentry.ofBlock
          (readDiskBlock w.fs ((readInode w.fs (w.dir w.dirP)).direct 0) w.den.toBlock).2)
      rw [hrest] at hpop
      apply exists_foldlM
      · exact ⟨by dsimp only; omega, by have := hw.2; dsimp only; omega⟩
      · exact (entriesOk_iff _).mp hok
      · rw [← (List.cons.inj hpop).2]
        rw [← hfound, children, List.length_map] at hroom
        change ((_ : ℕ) : ℤ) ≤ ((5000 : ℕ) : ℤ)
        exact Int.ofNat_le.mpr hroom
    · rw [if_neg hok] at h
      cases h
  · rw [if_neg hx] at h
    cases h

theorem whileLoop_ends {fuel : ℕ} (hw : Bounded w) (h : whileLoop indirMap fuel w = .ok w') :
    Ends (expand indirMap) 5000 (w.fs, w.den) (stack w) (w'.fs, w'.den) := by
  induction fuel generalizing w with
  | zero => cases h
  | succ fuel ih =>
    unfold whileLoop at h
    by_cases h0 : w.dirP ≥ 0
    · rw [if_pos h0] at h
      cases hv : visitDir indirMap w with
      | error e =>
        rw [hv] at h
        cases h
      | ok w₁ =>
        rw [hv] at h
        obtain ⟨rest, found, hstack, hexpand, hstack₁, hb⟩ := visitDir_ok hw h0 hv
        rw [hstack]
        refine .cons hexpand ?_ ?_
        · have hlength := stack_length hb
          have hlt := hb.2
          rw [hstack₁, List.length_append, List.length_reverse] at hlength
          unfold dirSize at hlt
          omega
        · rw [← hstack₁]
          exact ih hb h
    · rw [if_neg h0] at h
      cases h
      rw [stack_eq_nil (by omega)]
      exact .nil _

theorem exists_whileLoop {st t : FS × Dentry} {xs : List ℤ}
    (h : Ends (expand indirMap) 5000 st xs t) (hw : Bounded w) (hst : (w.fs, w.den) = st)
    (hxs : stack w = xs) :
    ∃ fuel w', whileLoop indirMap fuel w = .ok w' ∧ (w'.fs, w'.den) = t := by
  have hlength := stack_length hw
  induction h generalizing w with
  | nil s =>
    rw [hxs] at hlength
    have hneg : ¬ w.dirP ≥ 0 := by
      have hnil : ((List.nil : List ℤ).length : ℤ) = 0 := rfl
      omega
    refine ⟨1, w, ?_, hst⟩
    unfold whileLoop
    rw [if_neg hneg]
  | @cons st st₁ t x found rest hvisit hroom _ ih =>
    have h0 : w.dirP ≥ 0 := by
      rw [hxs, List.length_cons] at hlength
      omega
    have hpop := stack_pop h0 w.fs w.den
    rw [hxs] at hpop
    obtain ⟨hx, hrest⟩ := List.cons.inj hpop
    rw [← hst, hx] at hvisit
    rw [hx] at hxs
    obtain ⟨w₁, hv⟩ := exists_visitDir hw h0 hxs hvisit hroom
    obtain ⟨rest', found', hstack, hexpand, hstack₁, hb⟩ := visitDir_ok hw h0 hv
    rw [hvisit] at hexpand
    obtain ⟨hst₁, hfound⟩ := Prod.mk.inj (Option.some.inj hexpand)
    rw [hxs] at hstack
    obtain ⟨fuel, w', hrun, ht⟩ := ih hb hst₁.symm
      (by rw [hstack₁, ← hfound, (List.cons.inj hstack).2]) (stack_length hb)
    refine ⟨fuel + 1, w', ?_, ht⟩
    unfold whileLoop
    rw [if_pos h0, hv]
    exact hrun

end Loop

end OsProjects.Fsck
