import Mathlib

/-!
# Numbers in text, `scanf` and `fgets`

A text is the list of its characters, each of them one byte.  A format is the
list of its directives.  What is printed is scanned back, as long as no digit
follows a number.
-/

namespace OsProjects.Stdio

abbrev Text := List Char

/-! ## Digits -/

/-- The digit that a character stands for, in bases up to 16. -/
def digitOf (c : Char) : Option ℕ :=
  if '0' ≤ c ∧ c ≤ '9' then some (c.toNat - 48)
  else if 'a' ≤ c ∧ c ≤ 'f' then some (c.toNat - 87)
  else if 'A' ≤ c ∧ c ≤ 'F' then some (c.toNat - 55)
  else none

def isDigit (b : ℕ) (c : Char) : Bool := (digitOf c).any (· < b)

def ofDigits (b : ℕ) (s : Text) : ℕ := s.foldl (fun v c => b * v + (digitOf c).getD 0) 0

lemma digitOf_digitChar {d : ℕ} (hd : d < 16) : digitOf d.digitChar = some d := by
  interval_cases d <;> decide

lemma isDigit_digitChar {b d : ℕ} (hb : b ≤ 16) (hd : d < b) : isDigit b d.digitChar = true := by
  rw [isDigit, digitOf_digitChar (hd.trans_le hb)]
  exact decide_eq_true hd

lemma ofDigits_append_digitChar {b d : ℕ} (hd : d < 16) (s : Text) :
    ofDigits b (s ++ [d.digitChar]) = b * ofDigits b s + d := by
  simp [ofDigits, List.foldl_append, digitOf_digitChar hd]

lemma toDigits_step {b k : ℕ} (hb : 1 < b) (hk : 0 < k) {d : ℕ} (hd : d < b) :
    Nat.toDigits b (b * k + d) = Nat.toDigits b k ++ [d.digitChar] := by
  rw [← Nat.toDigits_append_toDigits hb hk hd, Nat.toDigits_of_lt_base hd]

lemma ofDigits_toDigits {b : ℕ} (hb : 1 < b) (hb' : b ≤ 16) (n : ℕ) :
    ofDigits b (Nat.toDigits b n) = n := by
  induction n using Nat.base_induction b hb with
  | single m hm =>
    have := ofDigits_append_digitChar (b := b) (hm.trans_le hb') []
    simpa [Nat.toDigits_of_lt_base hm, ofDigits] using this
  | digit k d hd hk ih =>
    rw [toDigits_step hb hk hd, ofDigits_append_digitChar (hd.trans_le hb'), ih]

lemma isDigit_of_mem_toDigits {b : ℕ} (hb : 1 < b) (hb' : b ≤ 16) (n : ℕ) :
    ∀ c ∈ Nat.toDigits b n, isDigit b c = true := by
  induction n using Nat.base_induction b hb with
  | single m hm =>
    rw [Nat.toDigits_of_lt_base hm]
    simpa using isDigit_digitChar hb' hm
  | digit k d hd hk ih =>
    intro c hc
    rw [toDigits_step hb hk hd, List.mem_append, List.mem_singleton] at hc
    rcases hc with hc | rfl
    · exact ih c hc
    · exact isDigit_digitChar hb' hd

/-- A byte as a character is this byte. -/
lemma toNat_ofByte (b : UInt8) : (Char.ofNat b.toNat).toNat = b.toNat := by
  have hb : b.toNat < 256 := b.toNat_lt
  rw [Char.toNat_ofNat, if_pos (Or.inl (by omega))]

/-! ## `printf` -/

/-- `%d` -/
def dec (v : ℤ) : Text := (if v < 0 then ['-'] else []) ++ Nat.toDigits 10 v.natAbs

/-- `%0wx`, and `%x` for `w = 0` -/
def hex (w n : ℕ) : Text :=
  List.replicate (w - (Nat.toDigits 16 n).length) '0' ++ Nat.toDigits 16 n

lemma mem_dec {v : ℤ} {c : Char} (hc : c ∈ dec v) : c = '-' ∨ isDigit 10 c = true := by
  rcases List.mem_append.mp hc with hc | hc
  · split_ifs at hc
    · exact Or.inl (List.mem_singleton.mp hc)
    · cases hc
  · exact Or.inr (isDigit_of_mem_toDigits (by decide) (by decide) _ c hc)

lemma dec_ne_nil (v : ℤ) : dec v ≠ [] := by
  intro h
  exact Nat.toDigits_ne_nil (List.append_eq_nil_iff.mp h).2

lemma mem_hex {w n : ℕ} {c : Char} (hc : c ∈ hex w n) : isDigit 16 c = true := by
  rcases List.mem_append.mp hc with hc | hc
  · rw [List.eq_of_mem_replicate hc]
    decide
  · exact isDigit_of_mem_toDigits (by decide) (by decide) n c hc

lemma length_dec {v : ℤ} {k : ℕ} (hk : 0 < k) (hv : v.natAbs < 10 ^ k) :
    (dec v).length ≤ k + 1 := by
  have h := (Nat.length_toDigits_le_iff (by decide) hk).mpr hv
  rw [dec, List.length_append]
  split_ifs <;> simp <;> omega

lemma length_hex {n k : ℕ} (w : ℕ) (hk : 0 < k) (hn : n < 16 ^ k) :
    (hex w n).length ≤ max w k := by
  have h := (Nat.length_toDigits_le_iff (by decide) hk).mpr hn
  rw [hex, List.length_append, List.length_replicate]
  omega

/-! ## `scanf` -/

/-- `isspace` -/
def isSpace (c : Char) : Bool := c ∈ [' ', '\t', '\n', '\x0b', '\x0c', '\r']

/-- The factor of an optional sign, and what follows. -/
def readSign : Text → ℤ × Text
  | '-' :: s => (-1, s)
  | '+' :: s => (1, s)
  | s => (1, s)

/-- In base 16 a number may start with `0x`. -/
def skipPrefix : ℕ → Text → Text
  | 16, '0' :: 'x' :: s => '0' :: s
  | 16, '0' :: 'X' :: s => '0' :: s
  | _, s => s

/-- The 64 bits of a number as `strtol` finds them for `%d`, and `strtoul` for `%x`.  Where they are
too few the result is the end of the range. -/
def toLong (b : ℕ) (sign : ℤ) (n : ℕ) : ℤ :=
  if b = 10 then max (-2 ^ 63) (min (sign * n) (2 ^ 63 - 1))
  else if n < 2 ^ 64 then sign * n
  else 2 ^ 64 - 1

/-- The number at the start of the text, and the text behind it. -/
def scanInt (b : ℕ) (s : Text) : Option ℤ × Text :=
  let (sign, s) := readSign (s.dropWhile isSpace)
  let s := skipPrefix b s
  let digits := s.takeWhile (isDigit b)
  (if digits = [] then none else some (toLong b sign (ofDigits b digits)), s.dropWhile (isDigit b))

inductive Directive
  | space
  | lit (c : Char)
  | char
  | int (b : ℕ)
  deriving DecidableEq

inductive Value
  | char (c : Char)
  | int (v : ℤ)
  deriving DecidableEq

/-- The directives of a literal text in a format. -/
def literal (s : String) : List Directive :=
  s.toList.map fun c => if isSpace c then .space else .lit c

/-- What a directive stores, or `none` if it fails, and the text behind it. -/
def Directive.scan : Directive → Text → Option (List Value) × Text
  | .space, s => (some [], s.dropWhile isSpace)
  | .lit _, [] => (none, [])
  | .lit c, a :: s => if a = c then (some [], s) else (none, a :: s)
  | .char, [] => (none, [])
  | .char, a :: s => (some [.char a], s)
  | .int b, s => ((scanInt b s).1.map fun v => [.int v], (scanInt b s).2)

/-- The values stored up to the first failure, and the text behind them. -/
def scan : List Directive → Text → List Value × Text
  | [], s => ([], s)
  | d :: ds, s =>
    match d.scan s with
    | (none, s) => ([], s)
    | (some vs, s) => (vs ++ (scan ds s).1, (scan ds s).2)

/-- The kind of the value that a directive stores, if any. -/
def Directive.stores : Directive → List Bool
  | .space => []
  | .lit _ => []
  | .char => [true]
  | .int _ => [false]

def Value.isChar : Value → Bool
  | .char _ => true
  | .int _ => false

lemma Directive.scan_stores {d : Directive} {s t : Text} {vs : List Value}
    (h : d.scan s = (some vs, t)) : vs.map Value.isChar = d.stores := by
  cases d with
  | space =>
    cases h
    rfl
  | lit c =>
    cases s with
    | nil => cases h
    | cons a s =>
      rw [Directive.scan] at h
      split_ifs at h <;> cases h
      rfl
  | char =>
    cases s with
    | nil => cases h
    | cons a s =>
      cases h
      rfl
  | int b =>
    obtain ⟨v, -, rfl⟩ := Option.map_eq_some_iff.mp (Prod.mk.inj h).1
    rfl

/-- The values are those of the first conversions of the format. -/
lemma scan_stores (ds : List Directive) (s : Text) :
    (scan ds s).1.map Value.isChar <+: ds.flatMap Directive.stores := by
  induction ds generalizing s with
  | nil => exact List.nil_prefix
  | cons d ds ih =>
    rw [scan, List.flatMap_cons]
    split
    · exact List.nil_prefix
    · next vs t h =>
      rw [List.map_append, Directive.scan_stores h]
      exact (List.prefix_append_right_inj _).mpr (ih t)

/-! ## Scanning what was printed -/

/-- A character that is no part of a number, nor of the start of one. -/
def stops (c : Char) : Bool := (digitOf c).isNone && (c ≠ 'x' && c ≠ 'X')

/-- A number in front of this text ends there. -/
def EndsNumber (s : Text) : Prop := ∀ c ∈ s.head?, stops c = true

lemma endsNumber_cons {c : Char} (hc : stops c = true) (s : Text) : EndsNumber (c :: s) := by
  intro a ha
  rwa [← Option.some.inj ha]

lemma not_isDigit_of_stops {b : ℕ} {c : Char} (hc : stops c = true) : isDigit b c = false := by
  rw [stops, Bool.and_eq_true, Option.isNone_iff_eq_none] at hc
  rw [isDigit, hc.1]
  rfl

lemma stops_of_isSpace {c : Char} (hc : isSpace c = true) : stops c = true := by
  simp only [isSpace, List.mem_cons, List.not_mem_nil, or_false, decide_eq_true_eq] at hc
  rcases hc with rfl | rfl | rfl | rfl | rfl | rfl <;> decide

lemma isSpace_of_isDigit {b : ℕ} {c : Char} (hc : isDigit b c = true) : isSpace c = false := by
  cases h : isSpace c with
  | false => rfl
  | true => rw [not_isDigit_of_stops (stops_of_isSpace h)] at hc; cases hc

lemma takeWhile_isDigit {b : ℕ} {s rest : Text} (hs : ∀ c ∈ s, isDigit b c = true)
    (hr : EndsNumber rest) : (s ++ rest).takeWhile (isDigit b) = s := by
  rw [List.takeWhile_append_of_pos hs]
  cases rest with
  | nil => simp
  | cons c rest => simp [not_isDigit_of_stops (hr c rfl)]

lemma dropWhile_isDigit {b : ℕ} {s rest : Text} (hs : ∀ c ∈ s, isDigit b c = true)
    (hr : EndsNumber rest) : (s ++ rest).dropWhile (isDigit b) = rest := by
  rw [List.dropWhile_append_of_pos hs]
  cases rest with
  | nil => rfl
  | cons c rest => simp [not_isDigit_of_stops (hr c rfl)]

lemma dropWhile_isSpace {c : Char} (hc : isSpace c = false) (s : Text) :
    (c :: s).dropWhile isSpace = c :: s := by
  simp [hc]

lemma readSign_of_isDigit {b : ℕ} {c : Char} (hc : isDigit b c = true) (s : Text) :
    readSign (c :: s) = (1, c :: s) := by
  unfold readSign
  split
  · next h => cases h; cases hc
  · next h => cases h; cases hc
  · rfl

/-- No `0x` stands at the start of a row of digits. -/
lemma skipPrefix_digits {b : ℕ} {s rest : Text} (hne : s ≠ []) (hs : ∀ c ∈ s, isDigit b c = true)
    (hr : EndsNumber rest) : skipPrefix b (s ++ rest) = s ++ rest := by
  have key : ∀ {x : Char} {t : Text}, s ++ rest = '0' :: x :: t →
      isDigit b x = true ∨ stops x = true := by
    intro x t h
    match s, hne, hs, h with
    | [a], _, _, h =>
      obtain rfl : rest = x :: t := (List.cons.inj h).2
      exact Or.inr (hr x rfl)
    | a :: a' :: s, _, hs, h =>
      obtain rfl : a' = x := (List.cons.inj (List.cons.inj h).2).1
      exact Or.inl (hs a' (by simp))
  unfold skipPrefix
  split
  · next h => rcases key h with h | h <;> cases h
  · next h => rcases key h with h | h <;> cases h
  · rfl

lemma scanInt_digits {b : ℕ} {s rest : Text} (hne : s ≠ []) (hs : ∀ c ∈ s, isDigit b c = true)
    (hr : EndsNumber rest) : scanInt b (s ++ rest) = (some (toLong b 1 (ofDigits b s)), rest) := by
  cases s with
  | nil => exact absurd rfl hne
  | cons c s =>
    have hc : isDigit b c = true := hs c (by simp)
    rw [scanInt, List.cons_append, dropWhile_isSpace (isSpace_of_isDigit hc),
      readSign_of_isDigit hc]
    simp only
    rw [← List.cons_append, skipPrefix_digits hne hs hr, takeWhile_isDigit hs hr,
      dropWhile_isDigit hs hr, if_neg hne]

lemma scanInt_minus {b : ℕ} {s rest : Text} (hne : s ≠ []) (hs : ∀ c ∈ s, isDigit b c = true)
    (hr : EndsNumber rest) :
    scanInt b ('-' :: (s ++ rest)) = (some (toLong b (-1) (ofDigits b s)), rest) := by
  rw [scanInt, dropWhile_isSpace (by decide)]
  simp only [readSign]
  rw [skipPrefix_digits hne hs hr, takeWhile_isDigit hs hr, dropWhile_isDigit hs hr, if_neg hne]

/-- In the range of a `long` a number is stored as it is. -/
lemma toLong_dec {sign : ℤ} {n : ℕ} (hlow : -2 ^ 63 ≤ sign * n) (hhigh : sign * n < 2 ^ 63) :
    toLong 10 sign n = sign * n := by
  rw [toLong, if_pos rfl, min_eq_left (by omega), max_eq_right hlow]

lemma toLong_hex {n : ℕ} (h : n < 2 ^ 64) : toLong 16 1 n = n := by
  rw [toLong, if_neg (by decide), if_pos h, one_mul]

lemma scanInt_dec {v : ℤ} (hlow : -2 ^ 63 ≤ v) (hhigh : v < 2 ^ 63) {rest : Text}
    (hr : EndsNumber rest) : scanInt 10 (dec v ++ rest) = (some v, rest) := by
  have hne : Nat.toDigits 10 v.natAbs ≠ [] := Nat.toDigits_ne_nil
  have hs := isDigit_of_mem_toDigits (b := 10) (by decide) (by decide) v.natAbs
  have hv : ofDigits 10 (Nat.toDigits 10 v.natAbs) = v.natAbs :=
    ofDigits_toDigits (by decide) (by decide) _
  rw [dec]
  split_ifs with h
  · rw [List.append_assoc]
    have habs : -1 * ((v.natAbs : ℕ) : ℤ) = v := by omega
    refine (scanInt_minus hne hs hr).trans ?_
    rw [hv, toLong_dec (habs.symm ▸ hlow) (habs.symm ▸ hhigh), habs]
  · have habs : 1 * ((v.natAbs : ℕ) : ℤ) = v := by omega
    refine (scanInt_digits hne hs hr).trans ?_
    rw [hv, toLong_dec (habs.symm ▸ hlow) (habs.symm ▸ hhigh), habs]

lemma ofDigits_zeros (b k : ℕ) (s : Text) :
    ofDigits b (List.replicate k '0' ++ s) = ofDigits b s := by
  induction k with
  | zero => rfl
  | succ k ih => rw [List.replicate_succ, List.cons_append, ← ih, ofDigits, List.foldl_cons]; rfl

lemma scanInt_hex (w : ℕ) {n : ℕ} (hn : n < 2 ^ 64) {rest : Text} (hr : EndsNumber rest) :
    scanInt 16 (hex w n ++ rest) = (some (n : ℤ), rest) := by
  have hne : hex w n ≠ [] := by
    intro h
    exact Nat.toDigits_ne_nil (List.append_eq_nil_iff.mp h).2
  rw [scanInt_digits hne (fun c hc => mem_hex hc) hr, hex, ofDigits_zeros,
    ofDigits_toDigits (by decide) (by decide), toLong_hex hn]

section Formats

variable (ds : List Directive)

lemma scan_int_dec {v : ℤ} (hlow : -2 ^ 63 ≤ v) (hhigh : v < 2 ^ 63) {rest : Text}
    (hr : EndsNumber rest) :
    scan (.int 10 :: ds) (dec v ++ rest) = (.int v :: (scan ds rest).1, (scan ds rest).2) := by
  rw [scan, Directive.scan, scanInt_dec hlow hhigh hr]
  rfl

lemma scan_int_hex (w : ℕ) {n : ℕ} (hn : n < 2 ^ 64) {rest : Text} (hr : EndsNumber rest) :
    scan (.int 16 :: ds) (hex w n ++ rest) = (.int n :: (scan ds rest).1, (scan ds rest).2) := by
  rw [scan, Directive.scan, scanInt_hex w hn hr]
  rfl

lemma scan_char (c : Char) (s : Text) :
    scan (.char :: ds) (c :: s) = (.char c :: (scan ds s).1, (scan ds s).2) := rfl

lemma scan_lit (c : Char) (s : Text) : scan (.lit c :: ds) (c :: s) = scan ds s := by
  rw [scan, Directive.scan, if_pos rfl]
  rfl

lemma scan_space_of_head {a : Char} {s : Text} (ha : isSpace a = true)
    (hs : ∀ c ∈ s.head?, isSpace c = false) : scan (.space :: ds) (a :: s) = scan ds s := by
  have hd : s.dropWhile isSpace = s := by
    cases s with
    | nil => rfl
    | cons c s => exact dropWhile_isSpace (hs c rfl) s
  rw [scan, Directive.scan, List.dropWhile_cons_of_pos ha, hd]
  rfl

lemma scan_space {a c : Char} (ha : isSpace a = true) (hc : isSpace c = false) (s : Text) :
    scan (.space :: ds) (a :: c :: s) = scan ds (c :: s) := by
  apply scan_space_of_head ds ha
  intro d hd
  rwa [← Option.some.inj hd]

lemma scan_space_dec {a : Char} (ha : isSpace a = true) (v : ℤ) (rest : Text) :
    scan (.space :: ds) (a :: (dec v ++ rest)) = scan ds (dec v ++ rest) := by
  apply scan_space_of_head ds ha
  intro c hc
  rw [List.head?_append_of_ne_nil _ (dec_ne_nil v)] at hc
  rcases mem_dec (List.mem_of_mem_head? hc) with rfl | h
  · rfl
  · exact isSpace_of_isDigit h

end Formats

/-! ## Words -/

/-- `%s`: the next word, unless the text ends before, and the text behind it. -/
def scanWord (s : Text) : Option Text × Text :=
  let s := s.dropWhile isSpace
  (if s = [] then none else some (s.takeWhile fun c => !isSpace c), s.dropWhile fun c => !isSpace c)

/-- What a format of `n` times `%s` stores. -/
def scanWords : ℕ → Text → List Text
  | 0, _ => []
  | n + 1, s =>
    match scanWord s with
    | (none, _) => []
    | (some w, s) => w :: scanWords n s

/-- A text that `%s` stores as a whole. -/
structure IsWord (w : Text) : Prop where
  ne_nil : w ≠ []
  no_space : ∀ c ∈ w, isSpace c = false

section Words
variable {w rest : Text} {a : Char}

lemma scanWord_cons (hw : IsWord w) (ha : isSpace a = true) :
    scanWord (w ++ a :: rest) = (some w, a :: rest) := by
  have hword : ∀ c ∈ w, (!isSpace c) = true := fun c hc => by
    rw [hw.no_space c hc]
    rfl
  have hstart : (w ++ a :: rest).dropWhile isSpace = w ++ a :: rest := by
    cases w with
    | nil => exact absurd rfl hw.ne_nil
    | cons c w => exact dropWhile_isSpace (hw.no_space c List.mem_cons_self) _
  have htake : (a :: rest).takeWhile (fun c => !isSpace c) = [] := by simp [ha]
  have hdrop : (a :: rest).dropWhile (fun c => !isSpace c) = a :: rest := by simp [ha]
  unfold scanWord
  dsimp only
  rw [hstart, if_neg (by simp), List.takeWhile_append_of_pos hword, htake, List.append_nil,
    List.dropWhile_append_of_pos hword, hdrop]

lemma scanWord_space (ha : isSpace a = true) (s : Text) : scanWord (a :: s) = scanWord s := by
  unfold scanWord
  rw [List.dropWhile_cons_of_pos ha]

lemma scanWords_space (ha : isSpace a = true) (n : ℕ) (s : Text) :
    scanWords n (a :: s) = scanWords n s := by
  cases n with
  | zero => rfl
  | succ n => rw [scanWords, scanWords, scanWord_space ha]

lemma mem_intercalate {ws : List Text} {c : Char} (h : c ∈ [a].intercalate ws) :
    c = a ∨ ∃ w ∈ ws, c ∈ w := by
  induction ws with
  | nil => cases h
  | cons w ws ih =>
    cases ws with
    | nil =>
      have hone : [a].intercalate [w] = w := by simp [List.intercalate]
      rw [hone] at h
      exact Or.inr ⟨w, List.mem_cons_self, h⟩
    | cons v vs =>
      have hmore : [a].intercalate (w :: v :: vs) = w ++ a :: [a].intercalate (v :: vs) := by
        simp [List.intercalate]
      rw [hmore, List.mem_append, List.mem_cons] at h
      rcases h with h | h | h
      · exact Or.inr ⟨w, List.mem_cons_self, h⟩
      · exact Or.inl h
      · exact (ih h).imp id fun ⟨w', hw', hc⟩ => ⟨w', List.mem_cons_of_mem _ hw', hc⟩

/-- The words of a line are stored as they are. -/
lemma scanWords_line {ws : List Text} (hws : ∀ w ∈ ws, IsWord w) (n : ℕ) :
    scanWords n ([' '].intercalate ws ++ ['\n']) = ws.take n := by
  induction ws generalizing n with
  | nil =>
    cases n with
    | zero => rfl
    | succ n => rfl
  | cons w ws ih =>
    have hw := hws w List.mem_cons_self
    have ih' := ih fun v hv => hws v (List.mem_cons_of_mem _ hv)
    cases n with
    | zero => rfl
    | succ n =>
      cases ws with
      | nil =>
        have hline : [' '].intercalate [w] ++ ['\n'] = w ++ '\n' :: [] := by simp [List.intercalate]
        rw [hline, scanWords, scanWord_cons hw rfl]
        dsimp only
        rw [scanWords_space rfl]
        cases n with
        | zero => rfl
        | succ n => rfl
      | cons v vs =>
        have hline : [' '].intercalate (w :: v :: vs) ++ ['\n'] =
            w ++ ' ' :: ([' '].intercalate (v :: vs) ++ ['\n']) := by simp [List.intercalate]
        rw [hline, scanWords, scanWord_cons hw rfl]
        dsimp only
        rw [scanWords_space rfl, ih', List.take_succ_cons]

end Words

/-! ## `fgets` -/

/-- A string ends at the first null character. -/
def cstr (s : Text) : Text := s.takeWhile (· ≠ '\x00')

/-- What is stored in front of the `'\0'`, one line or as much of it as fits into the buffer, and
the rest of the file. -/
def fgets (size : ℕ) (input : Text) : Option (Text × Text) :=
  if input = [] then none
  else if '\n' ∈ input.take (size - 1) then
    some (input.takeWhile (· ≠ '\n') ++ ['\n'], (input.dropWhile (· ≠ '\n')).drop 1)
  else some (input.take (size - 1), input.drop (size - 1))

def readLoop (size : ℕ) : ℕ → Text → List Text
  | 0, _ => []
  | fuel + 1, input =>
    match fgets size input with
    | none => []
    | some (line, rest) => line :: readLoop size fuel rest

/-- What `fgets` stores until the end of the file.  Every call takes at least one
character when the buffer has room for one. -/
def storedLines (size : ℕ) (input : Text) : List Text := readLoop size input.length input

/-- The strings that are then in the buffer. -/
def readLines (size : ℕ) (input : Text) : List Text := (storedLines size input).map cstr

/-- A line that fits into the buffer, without its end. -/
structure FitsLine (size : ℕ) (l : Text) : Prop where
  no_end : '\n' ∉ l
  no_null : '\x00' ∉ l
  length : l.length + 2 ≤ size

lemma cstr_append {s : Text} (h : '\x00' ∉ s) (t : Text) : cstr (s ++ t) = s ++ cstr t := by
  apply List.takeWhile_append_of_pos
  intro c hc
  exact decide_eq_true (ne_of_mem_of_not_mem hc h)

lemma prefix_cstr (s : Text) : cstr s <+: s := List.takeWhile_prefix _

lemma cstr_line {size : ℕ} {l : Text} (h : FitsLine size l) : cstr (l ++ ['\n']) = l ++ ['\n'] := by
  rw [cstr_append h.no_null]
  rfl

lemma takeWhile_line {s : Text} (h : '\n' ∉ s) (t : Text) :
    (s ++ t).takeWhile (· ≠ '\n') = s ++ t.takeWhile (· ≠ '\n') := by
  apply List.takeWhile_append_of_pos
  intro c hc
  exact decide_eq_true (ne_of_mem_of_not_mem hc h)

lemma fgets_line {size : ℕ} {l : Text} (h : FitsLine size l) (rest : Text) :
    fgets size (l ++ '\n' :: rest) = some (l ++ ['\n'], rest) := by
  have hl : ∀ c ∈ l, decide (c ≠ '\n') = true := by
    intro c hc
    exact decide_eq_true (ne_of_mem_of_not_mem hc h.no_end)
  have hmem : '\n' ∈ (l ++ '\n' :: rest).take (size - 1) := by
    rw [List.take_append, List.take_of_length_le (by have := h.length; omega)]
    obtain ⟨k, hk⟩ : ∃ k, size - 1 - l.length = k + 1 := ⟨size - 2 - l.length, by
      have := h.length
      omega⟩
    simp [hk]
  rw [fgets, if_neg (by simp), if_pos hmem, takeWhile_line h.no_end,
    List.dropWhile_append_of_pos hl]
  simp

/-- What stands in front of the end of the line and fits is read. -/
lemma fgets_append {size : ℕ} {s : Text} (hs : s ≠ []) (hline : '\n' ∉ s)
    (hsize : s.length ≤ size - 1) (t : Text) :
    ∃ t' rest, fgets size (s ++ t) = some (s ++ t', rest) := by
  unfold fgets
  rw [if_neg (List.append_ne_nil_of_left_ne_nil hs t)]
  split_ifs
  · rw [takeWhile_line hline, List.append_assoc]
    exact ⟨_, _, rfl⟩
  · rw [List.take_append, List.take_of_length_le hsize]
    exact ⟨_, _, rfl⟩

/-- A line fits into the buffer, and a line break is its end. -/
lemma fgets_some {size : ℕ} {input line rest : Text} (h : fgets size input = some (line, rest)) :
    line.length ≤ size - 1 ∧ '\n' ∉ line.dropLast := by
  unfold fgets at h
  split_ifs at h with hnil hmem
  · obtain ⟨rfl, -⟩ := Prod.mk.inj (Option.some.inj h)
    have hbefore : '\n' ∉ input.takeWhile (· ≠ '\n') := by
      intro hmem
      simpa using List.mem_takeWhile_imp hmem
    rw [List.dropLast_concat]
    refine ⟨?_, hbefore⟩
    -- the line break is among the characters that fit
    by_contra hlong
    rw [List.length_append, List.length_singleton] at hlong
    apply hbefore
    have hpre : input.take (size - 1) <+: input.takeWhile (· ≠ '\n') :=
      List.prefix_of_prefix_length_le (List.take_prefix _ _) (List.takeWhile_prefix _)
        ((List.length_take_le _ _).trans (by omega))
    exact hpre.subset hmem
  · obtain ⟨rfl, -⟩ := Prod.mk.inj (Option.some.inj h)
    exact ⟨List.length_take_le _ _, fun hline => hmem (List.dropLast_subset _ hline)⟩

lemma fgets_shorter {size : ℕ} (hsize : 2 ≤ size) {input line rest : Text}
    (h : fgets size input = some (line, rest)) : rest.length < input.length := by
  rw [fgets] at h
  split_ifs at h with h0 hn
  · obtain ⟨-, rfl⟩ := Prod.mk.inj (Option.some.inj h)
    have := List.length_dropWhile_le (fun c => decide (c ≠ '\n')) input
    have := List.length_pos_of_ne_nil h0
    rw [List.length_drop]
    omega
  · obtain ⟨-, rfl⟩ := Prod.mk.inj (Option.some.inj h)
    have := List.length_pos_of_ne_nil h0
    rw [List.length_drop]
    omega

/-- Any fuel that reaches the end of the file gives the same lines. -/
lemma readLoop_eq {size : ℕ} (hsize : 2 ≤ size) {fuel : ℕ} {input : Text}
    (hfuel : input.length ≤ fuel) : readLoop size fuel input = storedLines size input := by
  induction fuel using Nat.strong_induction_on generalizing input with
  | _ fuel ih =>
    cases fuel with
    | zero => rw [List.length_eq_zero_iff.mp (Nat.le_zero.mp hfuel)]; rfl
    | succ fuel =>
      cases hl : input.length with
      | zero =>
        rw [List.length_eq_zero_iff.mp hl]
        rfl
      | succ n =>
        rw [storedLines, hl, readLoop, readLoop]
        cases hf : fgets size input with
        | none => rfl
        | some p =>
          obtain ⟨line, rest⟩ := p
          have hlt := fgets_shorter hsize hf
          simp only
          rw [ih fuel (Nat.lt_succ_self _) (by omega), ih n (by omega) (by omega)]

lemma storedLines_line {size : ℕ} {l : Text} (h : FitsLine size l) (rest : Text) :
    storedLines size (l ++ '\n' :: rest) = (l ++ ['\n']) :: storedLines size rest := by
  have hsize : 2 ≤ size := by
    have := h.length
    omega
  have hlen : (l ++ '\n' :: rest).length = (l.length + rest.length) + 1 := by
    simp
    omega
  rw [storedLines, hlen, readLoop, fgets_line h]
  simp only
  rw [readLoop_eq hsize (by omega)]

lemma readLines_line {size : ℕ} {l : Text} (h : FitsLine size l) (rest : Text) :
    readLines size (l ++ '\n' :: rest) = (l ++ ['\n']) :: readLines size rest := by
  rw [readLines, storedLines_line h, List.map_cons, cstr_line h]
  rfl

end OsProjects.Stdio
