import OsProjects.MatMul.Recovery

/-!
# The results are the matrix product

Both results are the product over the integers reduced to an `int`, and `main`
finds them matched.  An entry is exact if and only if it fits.
-/

namespace OsProjects.MatProduct
open MatMul (Input State Event Exec linearMult serialMatMult)

/-- The first `m` rows and `n` columns of an array, as integers. -/
def entries (M : MatMul.Matrix) (m n : ℕ) : Matrix (Fin m) (Fin n) ℤ := .of fun i j => (M i j).toInt

/-- The product of the two matrices of the file. -/
def product (x : Input) : Matrix (Fin x.m) (Fin x.p) ℤ := entries x.A x.m x.n * entries x.B x.n x.p

/-- `compare_matrices`: the first place where the matrices differ. -/
def compareMatrices (mat1 mat2 : MatMul.Matrix) (m n : ℕ) : Option (ℕ × ℕ) :=
  ((List.range m).flatMap fun i => (List.range n).map fun j => (i, j)).find? fun c =>
    mat1 c.1 c.2 ≠ mat2 c.1 c.2

variable {x : Input} {crashRate : ℤ} {capacity : ℕ} {junk s : State} {es : List Event}

/-- `int` arithmetic reduces the integer sum. -/
lemma linearMult_eq (a b : ℕ → Int32) (n : ℕ) :
    linearMult a b n = Int32.ofInt (∑ k ∈ Finset.range n, (a k).toInt * (b k).toInt) := by
  rw [linearMult]
  induction n with
  | zero => rfl
  | succ n ih =>
    rw [List.range_succ, List.foldl_append, ih, Finset.sum_range_succ, Int32.ofInt_add,
      Int32.ofInt_mul, Int32.ofInt_toInt, Int32.ofInt_toInt]
    rfl

lemma product_apply (x : Input) (i : Fin x.m) (j : Fin x.p) :
    product x i j = ∑ k ∈ Finset.range x.n, (x.A i k).toInt * (x.B k j).toInt := by
  rw [product, Matrix.mul_apply, Finset.sum_range]
  rfl

lemma serialMatMult_eq (i : Fin x.m) (j : Fin x.p) :
    serialMatMult x i j = Int32.ofInt (product x i j) := by
  rw [serialMatMult, if_pos ⟨i.isLt, j.isLt⟩, linearMult_eq, product_apply]
  rfl

lemma toInt_ofInt_iff (z : ℤ) : (Int32.ofInt z).toInt = z ↔ -2 ^ 31 ≤ z ∧ z < 2 ^ 31 := by
  constructor
  · intro h
    rw [← h]
    exact ⟨Int32.le_toInt _, Int32.toInt_lt _⟩
  · intro h
    rw [Int32.toInt_ofInt]
    exact Int.bmod_eq_of_le h.1 h.2

lemma compareMatrices_eq_none {mat1 mat2 : MatMul.Matrix} {m n : ℕ} :
    compareMatrices mat1 mat2 m n = none ↔ ∀ i < m, ∀ j < n, mat1 i j = mat2 i j := by
  simp [compareMatrices, List.find?_eq_none]

/-- Whatever crashes, at the end the results match, and each entry is that of the product,
exactly so if and only if it is an `int`. -/
theorem results_match (x : Input) (crashRate : ℤ) (capacity : ℕ) (junk : State) (es : List Event)
    (s : State) (hrun : Exec x crashRate capacity junk es s) (hdone : s.parent = .done) :
    compareMatrices (serialMatMult x) s.cParallel x.m x.p = none ∧
      ∀ (i : Fin x.m) (j : Fin x.p), s.cParallel i j = Int32.ofInt (product x i j) ∧
        ((s.cParallel i j).toInt = product x i j ↔
          -2 ^ 31 ≤ product x i j ∧ product x i j < 2 ^ 31) := by
  have hend := (MatMul.at_end hrun.inv hdone).2.2
  refine ⟨compareMatrices_eq_none.mpr fun i hi j hj => (hend i hi j hj).symm, fun i j => ?_⟩
  have hij : s.cParallel i j = Int32.ofInt (product x i j) :=
    (hend i i.isLt j j.isLt).trans (serialMatMult_eq i j)
  exact ⟨hij, by rw [hij, toInt_ofInt_iff]⟩

/-- Two times three in one row, without a crash. -/
theorem results_match_one :
    ∃ es s, Exec ⟨1, 1, 1, fun _ _ => 2, fun _ _ => 3⟩ 0 4 default es s ∧
      compareMatrices (serialMatMult ⟨1, 1, 1, fun _ _ => 2, fun _ _ => 3⟩) s.cParallel 1 1 =
        none := by
  have h₁ := Exec.step (Exec.start : Exec ⟨1, 1, 1, fun _ _ => 2, fun _ _ => 3⟩ 0 4 default _ _)
    (.parent (.fork rfl Nat.zero_lt_one))
  have h₂ := h₁.step (.parent (.forked rfl))
  have h₃ := h₂.step (.child 0 (.survive rfl rfl))
  have h₄ := h₃.step (.child 0 (.write rfl rfl Nat.zero_lt_one (by decide)))
  have h₅ := h₄.step (.child 0 (.exit rfl rfl))
  have h₆ := h₅.step (.parent (.waitpid rfl (by decide) rfl rfl rfl))
  have h₇ := h₆.step (.parent (.read rfl rfl (Or.inl (by decide))))
  have h₈ := h₇.step (.parent (.finish rfl rfl))
  exact ⟨_, _, h₈, (results_match _ _ _ _ _ _ h₈ rfl).1⟩

end OsProjects.MatProduct
