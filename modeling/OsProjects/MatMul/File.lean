import OsProjects.Library.Stdio
import OsProjects.MatMul.Deadlock
import OsProjects.MatMul.Product

/-!
# The file of the matrices: `matgen.c` and `read_matrix`

`read_matrix` finds the sizes and the entries that `mat_gen` has written, row by
row, wherever lines end.
-/

namespace OsProjects.MatMul
open Stdio

/-! ## `matmul_core.c` -/

/-- `fscanf(fp, "%d", &mat[i][j])` -/
def readEntry (i : ℕ) (st : Matrix × Text) (j : ℕ) : Matrix × Text :=
  match scanInt 10 st.2 with
  | (some v, s) => (fun a b => if a = i ∧ b = j then Int32.ofInt v else st.1 a b, s)
  | (none, s) => (st.1, s)

def readRow (cols : ℕ) (st : Matrix × Text) (i : ℕ) : Matrix × Text :=
  (List.range cols).foldl (readEntry i) st

/-- The two loops that read a matrix. -/
def readEntries (rows cols : ℕ) (st : Matrix × Text) : Matrix × Text :=
  (List.range rows).foldl (readRow cols) st

/-- `"%d %d %d"` -/
def sizesFormat : List Directive := [.int 10, .space, .int 10, .space, .int 10]

/-- The value of the `i`-th conversion, and the old one if there is none. -/
def sizeValue (values : List Value) (i : ℕ) (old : ℕ) : ℕ :=
  match values[i]? with
  | some (.int v) => (Int32.ofInt v).toInt.toNat
  | _ => old

/-- `read_matrix`: `junk` is what `malloc` returns, and has the sizes before. -/
def readMatrix (file : Text) (junk : Input) : Input :=
  let (values, s) := scan sizesFormat file
  let m := sizeValue values 0 junk.m
  let n := sizeValue values 1 junk.n
  let p := sizeValue values 2 junk.p
  let (A, s) := readEntries m n (junk.A, s)
  let (B, _) := readEntries n p (junk.B, s)
  { m := m, n := n, p := p, A := A, B := B }

/-! ## `matgen.c` -/

/-- A row as it is printed, without the end of its line. -/
def rowText (entry : ℕ → ℕ) (cols : ℕ) : Text :=
  (List.range cols).flatMap fun j => dec (entry j) ++ [' ']

def entriesText (entry : ℕ → ℕ → ℕ) (rows cols : ℕ) : Text :=
  (List.range rows).flatMap fun i => rowText (entry i) cols ++ ['\n']

/-- The entry of the first matrix that is the `n * i + j`-th call of `rand`. -/
def genA (n : ℕ) (rand : ℕ → ℕ) (i j : ℕ) : ℕ := rand (n * i + j) % 100

/-- The calls for the second matrix follow those for the first. -/
def genB (m n p : ℕ) (rand : ℕ → ℕ) (i j : ℕ) : ℕ := rand (m * n + (p * i + j)) % 100

/-- `main` of `matgen.c` with its three arguments, or the usage. -/
def matgen (m n p : ℤ) (rand : ℕ → ℕ) : Option Text :=
  if m ≤ 0 ∨ n ≤ 0 ∨ p ≤ 0 ∨ m > 30 ∨ n > 10000 ∨ p > 10000 then none
  else
    some (dec m ++ ' ' :: (dec n ++ ' ' :: (dec p ++ '\n' :: '\n' ::
      (entriesText (genA n.toNat rand) m.toNat n.toNat ++
        '\n' :: entriesText (genB m.toNat n.toNat p.toNat rand) n.toNat p.toNat))))

section Entries
variable (m n p : ℕ) (rand : ℕ → ℕ) (i j : ℕ)

lemma genA_lt : genA n rand i j < 100 := Nat.mod_lt _ (by decide)

lemma genB_lt : genB m n p rand i j < 100 := Nat.mod_lt _ (by decide)

end Entries

/-- The arguments that `main` does not answer with the usage. -/
lemma matgen_sizes {m n p : ℤ} {rand : ℕ → ℕ} {file : Text} (h : matgen m n p rand = some file) :
    (0 < m ∧ m ≤ 30) ∧ (0 < n ∧ n ≤ 10000) ∧ 0 < p ∧ p ≤ 10000 := by
  rw [matgen] at h
  split_ifs at h with hb
  omega

/-! ## Reading what was written -/

/-- The text behind the space it starts with. -/
def skip (s : Text) : Text := s.dropWhile isSpace

lemma scanInt_skip (b : ℕ) (s : Text) : scanInt b (skip s) = scanInt b s := by
  have h : skip (skip s) = skip s := List.dropWhile_idempotent _ s
  rw [scanInt, scanInt, ← skip, h, ← skip]

lemma skip_cons {c : Char} (hc : isSpace c = true) (s : Text) : skip (c :: s) = skip s :=
  List.dropWhile_cons_of_pos hc

lemma readEntry_dec {M : Matrix} {i j v : ℕ} {s rest : Text} (hv : v < 100)
    (hs : skip s = skip (dec v ++ ' ' :: rest)) :
    readEntry i (M, s) j =
      (fun a b => if a = i ∧ b = j then Int32.ofInt v else M a b, ' ' :: rest) := by
  have h : scanInt 10 s = (some (v : ℤ), ' ' :: rest) := by
    rw [← scanInt_skip, hs, scanInt_skip]
    exact scanInt_dec (by omega) (by omega) (endsNumber_cons rfl _)
  rw [readEntry, h]

/-- One row, from any column on. -/
lemma readEntry_foldl {entry : ℕ → ℕ} (hentry : ∀ j, entry j < 100) (i : ℕ) (js : List ℕ)
    {M : Matrix} {s rest : Text}
    (hs : skip s = skip ((js.flatMap fun j => dec (entry j) ++ [' ']) ++ rest)) :
    ∃ s', js.foldl (readEntry i) (M, s) =
      (fun a b => if a = i ∧ b ∈ js then Int32.ofInt (entry b) else M a b, s') ∧
        skip s' = skip rest := by
  induction js generalizing M s with
  | nil => exact ⟨s, by simp, hs⟩
  | cons j js ih =>
    rw [List.flatMap_cons, List.append_assoc, List.append_assoc] at hs
    rw [List.foldl_cons, readEntry_dec (hentry j) hs]
    obtain ⟨s', hfold, hs'⟩ := ih (M := fun a b =>
      if a = i ∧ b = j then Int32.ofInt (entry j) else M a b) (skip_cons (c := ' ') rfl _)
    refine ⟨s', hfold.trans (congrArg (·, s') ?_), hs'⟩
    funext a b
    by_cases ha : a = i
    · by_cases hb : b = j
      · subst hb
        simp [ha]
      · simp [ha, hb]
    · simp [ha]

/-- The rows one after another, whatever space stands between them. -/
lemma readRow_foldl {entry : ℕ → ℕ → ℕ} (hentry : ∀ i j, entry i j < 100) (cols : ℕ)
    (is : List ℕ) {M : Matrix} {s rest : Text}
    (hs : skip s = skip ((is.flatMap fun i => rowText (entry i) cols ++ ['\n']) ++ rest)) :
    ∃ s', is.foldl (readRow cols) (M, s) =
      (fun a b => if a ∈ is ∧ b < cols then Int32.ofInt (entry a b) else M a b, s') ∧
        skip s' = skip rest := by
  induction is generalizing M s with
  | nil => exact ⟨s, by simp, hs⟩
  | cons i is ih =>
    rw [List.flatMap_cons, List.append_assoc, List.append_assoc] at hs
    obtain ⟨s₁, hrow, hs₁⟩ := readEntry_foldl (hentry i) i (List.range cols) (M := M) hs
    rw [List.foldl_cons, readRow, hrow]
    obtain ⟨s', hfold, hs'⟩ := ih (M := fun a b =>
      if a = i ∧ b ∈ List.range cols then Int32.ofInt (entry i b) else M a b)
        (hs₁.trans (skip_cons (c := '\n') rfl _))
    refine ⟨s', hfold.trans (congrArg (·, s') ?_), hs'⟩
    funext a b
    by_cases ha : a = i
    · subst ha
      by_cases hb : b < cols <;> simp [hb]
    · simp [ha]

lemma readEntries_text {entry : ℕ → ℕ → ℕ} (hentry : ∀ i j, entry i j < 100) (rows cols : ℕ)
    {M : Matrix} {s t : Text}
    (hs : skip s = skip (entriesText entry rows cols ++ t)) :
    ∃ s', readEntries rows cols (M, s) =
      (fun a b => if a < rows ∧ b < cols then Int32.ofInt (entry a b) else M a b, s') ∧
        skip s' = skip t := by
  obtain ⟨s', h, hs'⟩ := readRow_foldl hentry cols (List.range rows) (M := M) hs
  refine ⟨s', ?_, hs'⟩
  rw [readEntries, h]
  simp only [List.mem_range]

lemma scan_sizes {m n p : ℤ} (hm : 0 < m ∧ m ≤ 30) (hn : 0 < n ∧ n ≤ 10000)
    (hp : 0 < p ∧ p ≤ 10000) (rest : Text) :
    scan sizesFormat (dec m ++ ' ' :: (dec n ++ ' ' :: (dec p ++ '\n' :: rest))) =
      ([.int m, .int n, .int p], '\n' :: rest) := by
  rw [sizesFormat, scan_int_dec _ (by omega) (by omega) (endsNumber_cons rfl _),
    scan_space_dec _ rfl, scan_int_dec _ (by omega) (by omega) (endsNumber_cons rfl _),
    scan_space_dec _ rfl, scan_int_dec _ (by omega) (by omega) (endsNumber_cons rfl _)]
  rfl

/-- What `read_matrix` makes of a generated file. -/
def generated (m n p : ℕ) (rand : ℕ → ℕ) (junk : Input) : Input where
  m := m
  n := n
  p := p
  A := fun i j => if i < m ∧ j < n then Int32.ofInt (genA n rand i j) else junk.A i j
  B := fun i j => if i < n ∧ j < p then Int32.ofInt (genB m n p rand i j) else junk.B i j

lemma readMatrix_matgen {m n p : ℤ} {rand : ℕ → ℕ} {file : Text} (junk : Input)
    (h : matgen m n p rand = some file) :
    readMatrix file junk = generated m.toNat n.toNat p.toNat rand junk := by
  obtain ⟨hm, hn, hp⟩ := matgen_sizes h
  rw [matgen, if_neg (by omega)] at h
  obtain rfl := Option.some.inj h
  have hm' : (Int32.ofInt m).toInt = m := (MatProduct.toInt_ofInt_iff m).mpr (by omega)
  have hn' : (Int32.ofInt n).toInt = n := (MatProduct.toInt_ofInt_iff n).mpr (by omega)
  have hp' : (Int32.ofInt p).toInt = p := (MatProduct.toInt_ofInt_iff p).mpr (by omega)
  -- the first matrix is read up to the end of its last row, the second one behind the empty line
  obtain ⟨s₁, hA, hs₁⟩ := readEntries_text (genA_lt n.toNat rand) m.toNat n.toNat (M := junk.A)
    (s := '\n' :: '\n' :: (entriesText (genA n.toNat rand) m.toNat n.toNat ++
        '\n' :: entriesText (genB m.toNat n.toNat p.toNat rand) n.toNat p.toNat))
    (t := '\n' :: entriesText (genB m.toNat n.toNat p.toNat rand) n.toNat p.toNat)
    ((skip_cons rfl _).trans (skip_cons rfl _))
  obtain ⟨s₂, hB, -⟩ := readEntries_text (genB_lt m.toNat n.toNat p.toNat rand) n.toNat p.toNat
    (M := junk.B) (s := s₁) (t := []) (by rw [hs₁, skip_cons rfl, List.append_nil])
  have e0 : sizeValue [.int m, .int n, .int p] 0 junk.m = m.toNat := congrArg Int.toNat hm'
  have e1 : sizeValue [.int m, .int n, .int p] 1 junk.n = n.toNat := congrArg Int.toNat hn'
  have e2 : sizeValue [.int m, .int n, .int p] 2 junk.p = p.toNat := congrArg Int.toNat hp'
  simp only [readMatrix, scan_sizes hm hn hp, e0, e1, e2, hA, hB, generated]

end OsProjects.MatMul

namespace OsProjects.MatProduct
open MatMul Stdio

variable {m n p : ℕ} {rand : ℕ → ℕ} {junk : Input}

lemma toInt_entry {x : ℕ} (hx : x < 100) : (Int32.ofInt (x : ℤ)).toInt = x := by
  apply (toInt_ofInt_iff _).mpr
  omega

lemma generated_A {i j : ℕ} (hi : i < m) (hj : j < n) :
    ((generated m n p rand junk).A i j).toInt = genA n rand i j := by
  simp only [generated, if_pos (And.intro hi hj)]
  exact toInt_entry (genA_lt n rand i j)

lemma generated_B {i j : ℕ} (hi : i < n) (hj : j < p) :
    ((generated m n p rand junk).B i j).toInt = genB m n p rand i j := by
  simp only [generated, if_pos (And.intro hi hj)]
  exact toInt_entry (genB_lt m n p rand i j)

lemma product_generated (i : Fin m) (j : Fin p) :
    product (generated m n p rand junk) i j =
      ∑ k ∈ Finset.range n, (genA n rand i k : ℤ) * (genB m n p rand k j : ℤ) := by
  refine (product_apply (generated m n p rand junk) i j).trans (Finset.sum_congr rfl fun k hk => ?_)
  have hk' : k < n := Finset.mem_range.mp hk
  rw [generated_A i.isLt hk', generated_B hk' j.isLt]

/-- Entries below 100 in rows of 10000 at most stay far below the largest `int`. -/
lemma product_generated_fits (rand : ℕ → ℕ) (junk : Input) (hn : n ≤ 10000) (i : Fin m)
    (j : Fin p) :
    -2 ^ 31 ≤ product (generated m n p rand junk) i j ∧
      product (generated m n p rand junk) i j < 2 ^ 31 := by
  rw [product_generated]
  have hterm : ∀ k ∈ Finset.range n,
      (genA n rand i k : ℤ) * (genB m n p rand k j : ℤ) ≤ 99 * 99 := by
    intro k _
    have h1 : genA n rand i k ≤ 99 := Nat.le_of_lt_succ (genA_lt n rand i k)
    have h2 : genB m n p rand k j ≤ 99 := Nat.le_of_lt_succ (genB_lt m n p rand k j)
    exact_mod_cast Nat.mul_le_mul h1 h2
  have hle := Finset.sum_le_card_nsmul _ _ _ hterm
  have h0 : 0 ≤ ∑ k ∈ Finset.range n, (genA n rand i k : ℤ) * (genB m n p rand k j : ℤ) :=
    Finset.sum_nonneg fun k _ => by positivity
  rw [Finset.card_range, nsmul_eq_mul] at hle
  have hn' : (n : ℤ) ≤ 10000 := by exact_mod_cast hn
  constructor <;> linarith

/-- `read_matrix` finds in a generated file the sizes and exactly the entries that were drawn, and
the file needs no more than a pipe has room for: with any crashes the loop goes on until it is
done, in steps that the crashes bound, and then the results match and are the product over the
integers. -/
theorem matgen_matmul (m n p : ℤ) (rand : ℕ → ℕ) (file : Text)
    (hfile : matgen m n p rand = some file) (junk : Input) (crashRate : ℤ) (stack : State)
    (es : List Event) (s : State)
    (hrun : Exec (readMatrix file junk) crashRate pipeCapacity stack es s) :
    ((readMatrix file junk).m = m.toNat ∧ (readMatrix file junk).n = n.toNat ∧
      (readMatrix file junk).p = p.toNat ∧
      (∀ i < m.toNat, ∀ j < n.toNat,
        ((readMatrix file junk).A i j).toInt = genA n.toNat rand i j) ∧
      ∀ i < n.toNat, ∀ j < p.toNat,
        ((readMatrix file junk).B i j).toInt = genB m.toNat n.toNat p.toNat rand i j) ∧
    es.length ≤ (p.toNat + 4) * (m.toNat + (crashes es).length) + m.toNat + 2 ∧
      (s.parent ≠ .done →
        ∃ e s', Step (readMatrix file junk) crashRate pipeCapacity s e s' ∧ crashes [e] = []) ∧
      (s.parent = .done →
        compareMatrices (serialMatMult (readMatrix file junk)) s.cParallel m.toNat p.toNat = none ∧
          ∀ i < m.toNat, ∀ j < p.toNat, (s.cParallel i j).toInt =
            ∑ k ∈ Finset.range n.toNat,
              (genA n.toNat rand i k : ℤ) * (genB m.toNat n.toNat p.toNat rand k j : ℤ)) := by
  obtain ⟨-, ⟨-, hn⟩, -, hp⟩ := matgen_sizes hfile
  rw [readMatrix_matgen junk hfile] at hrun ⊢
  have hroom : 4 * p.toNat ≤ pipeCapacity := by
    rw [pipeCapacity]
    omega
  have hi := hrun.inv
  refine ⟨⟨rfl, rfl, rfl, fun i hi j hj => generated_A hi hj, fun i hi j hj => generated_B hi hj⟩,
    length_le hi, progress hroom hi, fun hdone => ⟨?_, fun i hi' j hj => ?_⟩⟩
  · exact compareMatrices_eq_none.mpr fun i hi' j hj => ((at_end hi hdone).2.2 i hi' j hj).symm
  · rw [(at_end hi hdone).2.2 i hi' j hj]
    have hij := serialMatMult_eq (x := generated m.toNat n.toNat p.toNat rand junk)
      (⟨i, hi'⟩ : Fin m.toNat) (⟨j, hj⟩ : Fin p.toNat)
    have hfits := product_generated_fits rand junk (by omega : n.toNat ≤ 10000)
      (⟨i, hi'⟩ : Fin m.toNat) (⟨j, hj⟩ : Fin p.toNat)
    rw [hij, (toInt_ofInt_iff _).mpr hfits, product_generated]

/-- One entry 7 in both matrices: the only row is computed, read back and compared. -/
theorem matgen_matmul_one :
    ∃ file es s, matgen 1 1 1 (fun _ => 7) = some file ∧
      Exec (readMatrix file default) 30 pipeCapacity default es s ∧ s.parent = .done ∧
      ((readMatrix file default).A 0 0).toInt = 7 ∧
      compareMatrices (serialMatMult (readMatrix file default)) s.cParallel 1 1 = none ∧
      (s.cParallel 0 0).toInt = 49 := by
  obtain ⟨file, hfile⟩ : ∃ file, matgen 1 1 1 (fun _ => 7) = some file := ⟨_, rfl⟩
  have h₀ : Exec (generated 1 1 1 (fun _ => 7) default) 30 pipeCapacity default _ _ := .start
  have h₁ := h₀.step (.parent (.fork rfl Nat.zero_lt_one))
  have h₂ := h₁.step (.parent (.forked rfl))
  have h₃ := h₂.step (.child 0 (.survive rfl rfl))
  have h₄ := h₃.step (.child 0 (.write rfl rfl Nat.zero_lt_one (by decide)))
  have h₅ := h₄.step (.child 0 (.exit rfl rfl))
  have h₆ := h₅.step (.parent (.waitpid rfl (by decide) rfl rfl rfl))
  have h₇ := h₆.step (.parent (.read rfl rfl (Or.inl (by decide))))
  have h₈ := h₇.step (.parent (.finish rfl rfl))
  have hread : readMatrix file default = generated 1 1 1 (fun _ => 7) default :=
    readMatrix_matgen default hfile
  rw [← hread] at h₈
  obtain ⟨⟨-, -, -, hA, -⟩, -, -, hdone⟩ :=
    matgen_matmul 1 1 1 _ file hfile default 30 default _ _ h₈
  obtain ⟨hsame, hentries⟩ := hdone rfl
  exact ⟨file, _, _, hfile, h₈, rfl, hA 0 Nat.zero_lt_one 0 Nat.zero_lt_one, hsame,
    hentries 0 Nat.zero_lt_one 0 Nat.zero_lt_one⟩

end OsProjects.MatProduct
