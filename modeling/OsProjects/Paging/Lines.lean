import OsProjects.Paging.Decode
import OsProjects.Paging.Service

/-!
# Written requests are read back

A file in the format of `main`, with comments between the requests, stands for
exactly these requests.
-/

namespace OsProjects.Paging
open Stdio

/-- The line of a request: a write has a byte behind the address. -/
def Request.line (r : Request) : Text :=
  dec r.pid ++ ' ' :: r.reqType :: ' ' :: '0' :: 'x' :: hex 4 (unsigned r.virtAddr.toInt) ++
    if r.reqType = 'W' then [' ', charOf r.byte] else []

/-- A request that a line can hold. -/
structure Request.Writable (r : Request) : Prop where
  pid_ge : -2 ^ 31 ≤ r.pid
  pid_lt : r.pid < 2 ^ 31
  reqType : r.reqType = 'R' ∨ r.reqType = 'W'
  no_space : r.reqType = 'W' → isSpace (charOf r.byte) = false
  no_null : r.reqType = 'W' → r.byte ≠ 0

inductive Entry
  | comment (text : Text)
  | request (r : Request)

def Entry.line : Entry → Text
  | .comment text => text
  | .request r => r.line

/-- The lines of the entries, each with its end. -/
def fileText (entries : List Entry) : Text := entries.flatMap fun e => e.line ++ ['\n']

def Entry.Ok : Entry → Prop
  | .comment text => isComment text = true ∧ FitsLine 256 text
  | .request r => r.Writable

def Entry.item : Entry → Option Item
  | .comment _ => none
  | .request r => some (.request r.used)

variable {r : Request} {v : Request}

/-! ## Numbers -/

lemma int32_ofInt_toInt {z : ℤ} (h0 : -2 ^ 31 ≤ z) (h1 : z < 2 ^ 31) :
    (Int32.ofInt z).toInt = z := by
  rw [Int32.toInt_ofInt]
  apply Int.bmod_eq_of_le
  · simpa [Int32.size] using h0
  · simpa [Int32.size] using h1

/-- `%x` reads an `int` as unsigned, and `sscanf` stores it back as it was. -/
lemma ofInt_unsigned (a : Int32) : Int32.ofInt (unsigned a.toInt) = a := by
  apply Int32.toBitVec.inj
  rw [Int32.toBitVec_ofInt, unsigned]
  apply BitVec.eq_of_toNat_eq
  simp

lemma byteOf_charOf (b : UInt8) : byteOf (charOf b) = b := by
  have hc : (charOf b).toNat = b.toNat := toNat_ofByte b
  rw [byteOf, hc, UInt8.ofNat_toNat]

lemma charOf_ne_null {b : UInt8} (h : b ≠ 0) : charOf b ≠ '\x00' := by
  intro hc
  apply h
  rw [← byteOf_charOf b, hc]
  rfl

/-! ## One line -/

lemma scan_line (hr : r.Writable) :
    (scan requestFormat (r.line ++ ['\n'])).1 =
      [.int r.pid, .char r.reqType, .int (unsigned r.virtAddr.toInt)] ++
        if r.reqType = 'W' then [.char (charOf r.byte)] else [] := by
  have hspace : isSpace r.reqType = false := by
    rcases hr.reqType with h | h <;> rw [h] <;> rfl
  have hend : EndsNumber ((if r.reqType = 'W' then [' ', charOf r.byte] else []) ++ ['\n']) := by
    split_ifs <;> exact endsNumber_cons rfl _
  -- directive by directive, each on what is left of the line
  have hlow : -2 ^ 63 ≤ r.pid := le_trans (by decide) hr.pid_ge
  have hhigh : r.pid < 2 ^ 63 := lt_trans hr.pid_lt (by decide)
  have haddr : unsigned r.virtAddr.toInt < 2 ^ 64 := lt_trans (BitVec.isLt _) (by decide)
  rw [requestFormat, Request.line]
  simp only [List.append_assoc, List.cons_append]
  rw [scan_int_dec _ hlow hhigh (endsNumber_cons rfl _), scan_space _ rfl hspace, scan_char,
    scan_space _ rfl rfl, scan_lit, scan_lit, scan_int_hex _ _ haddr hend]
  split_ifs with hW
  · simp only [List.cons_append, List.nil_append]
    rw [scan_space _ rfl (hr.no_space hW), scan_char]
    rfl
  · rfl

/-- The variables hold the request, and a write has all of its values. -/
lemma assign_line (hr : r.Writable) (v : Request) :
    (v.assign (scan requestFormat (r.line ++ ['\n'])).1).used = r.used ∧
      (v.assign (scan requestFormat (r.line ++ ['\n'])).1).incomplete
        (scan requestFormat (r.line ++ ['\n'])).1.length = false := by
  -- a read leaves the byte as it was, and makes no use of it
  have hpid := int32_ofInt_toInt hr.pid_ge hr.pid_lt
  have haddr := ofInt_unsigned r.virtAddr
  rw [scan_line hr]
  by_cases hW : r.reqType = 'W'
  · rw [if_pos hW]
    constructor
    · apply used_congr
      · exact hpid
      · rfl
      · exact haddr
      · exact fun _ => byteOf_charOf r.byte
    · simp [Request.incomplete]
  · have hR : r.reqType = 'R' := hr.reqType.resolve_right hW
    rw [if_neg hW]
    constructor
    · apply used_congr
      · exact hpid
      · rfl
      · exact haddr
      · exact fun h => absurd h hW
    · simp [Request.incomplete, Request.assign, charValue, hR]

/-- The line of a request is no comment: it starts with a sign or with a digit. -/
lemma not_isComment_line (r : Request) (s : Text) : isComment (r.line ++ s) = false := by
  have hpid := dec_ne_nil r.pid
  have hmem := @mem_dec r.pid
  rw [Request.line]
  cases h : dec r.pid with
  | nil => exact absurd h hpid
  | cons c t =>
    have hc := hmem (h ▸ List.mem_cons_self : c ∈ dec r.pid)
    have h1 : c ≠ '#' := by
      rintro rfl
      rcases hc with hc | hc <;> cases hc
    have h2 : c ≠ '%' := by
      rintro rfl
      rcases hc with hc | hc <;> cases hc
    simp [isComment, h1, h2]

/-- Neither the end of a line nor a null character is in the line of a request. -/
lemma notMem_line (hr : r.Writable) {x : Char} (hx : x = '\n' ∨ x = '\x00') : x ∉ r.line := by
  have hdec : x ∉ dec r.pid := by
    intro h
    rcases hx with rfl | rfl <;> rcases mem_dec h with h | h <;> cases h
  have hhex : x ∉ hex 4 (unsigned r.virtAddr.toInt) := by
    intro h
    rcases hx with rfl | rfl <;> cases mem_hex h
  have htype : x ≠ r.reqType := by
    rcases hr.reqType with h | h <;> rw [h] <;> rcases hx with rfl | rfl <;> decide
  have hbyte : r.reqType = 'W' → x ≠ charOf r.byte := by
    intro hW hc
    rcases hx with rfl | rfl
    · have := hr.no_space hW
      rw [← hc] at this
      cases this
    · exact charOf_ne_null (hr.no_null hW) hc.symm
  have hlit : x ≠ ' ' ∧ x ≠ '0' ∧ x ≠ 'x' := by
    rcases hx with rfl | rfl <;> decide
  rw [Request.line]
  split_ifs with hW
  · simp [hdec, hhex, htype, hbyte hW, hlit]
  · simp [hdec, hhex, htype, hlit]

lemma fitsLine_line (hr : r.Writable) : FitsLine 256 r.line := by
  have h1 : (dec r.pid).length ≤ 11 := by
    have := hr.pid_ge
    have := hr.pid_lt
    exact length_dec (k := 10) (by decide) (by norm_num; omega)
  have h2 : (hex 4 (unsigned r.virtAddr.toInt)).length ≤ 8 :=
    length_hex (k := 8) 4 (by decide) (BitVec.isLt _)
  constructor
  · exact notMem_line hr (Or.inl rfl)
  · exact notMem_line hr (Or.inr rfl)
  · rw [Request.line]
    split_ifs <;> simp <;> omega

/-! ## Files -/

lemma fitsLine_entry {e : Entry} (he : e.Ok) : FitsLine 256 e.line := by
  cases e with
  | comment text => exact he.2
  | request r => exact fitsLine_line he

lemma readLines_fileText {entries : List Entry} (h : ∀ e ∈ entries, e.Ok) :
    readLines 256 (fileText entries) = entries.map fun e => e.line ++ ['\n'] := by
  induction entries with
  | nil => rfl
  | cons e entries ih =>
    have he := fitsLine_entry (h e List.mem_cons_self)
    rw [fileText, List.flatMap_cons, List.append_assoc, List.singleton_append, readLines_line he]
    rw [List.map_cons, ← ih fun e' he' => h e' (List.mem_cons_of_mem _ he')]
    rfl

/-- The lines of the entries stand for the requests among them, whatever the variables hold. -/
lemma decode_entries {entries : List Entry} (h : ∀ e ∈ entries, e.Ok) (v : Request) :
    decode v (readLines 256 (fileText entries)) = entries.filterMap Entry.item := by
  rw [readLines_fileText h]
  induction entries generalizing v with
  | nil => rfl
  | cons e entries ih =>
    have hrest : ∀ e' ∈ entries, e'.Ok := fun e' he' => h e' (List.mem_cons_of_mem _ he')
    rw [List.map_cons, decode]
    cases e with
    | comment text =>
      have hc : isComment (text ++ ['\n']) = true := by
        have := (h _ List.mem_cons_self).1
        cases text with
        | nil => cases this
        | cons a text => exact this
      rw [Entry.line, if_pos hc]
      exact ih hrest v
    | request r =>
      have hr : r.Writable := h _ List.mem_cons_self
      obtain ⟨hused, hinc⟩ := assign_line hr v
      rw [Entry.line, if_neg (by rw [not_isComment_line]; exact Bool.false_ne_true)]
      simp only [hused, hinc, Bool.false_eq_true, if_false, ih hrest]
      rfl

/-! ## The first line -/

/-- The first line of a file, without its end. -/
def headerLine (maxVPN numProc : ℤ) : Text :=
  "# PAGES: ".toList ++ dec maxVPN ++ ", # PROCS: ".toList ++ dec numProc

lemma headerFormat_eq : headerFormat =
    .lit '#' :: .space :: .lit 'P' :: .lit 'A' :: .lit 'G' :: .lit 'E' :: .lit 'S' :: .lit ':' ::
      .space :: .int 10 :: .lit ',' :: .space :: .lit '#' :: .space :: .lit 'P' :: .lit 'R' ::
        .lit 'O' :: .lit 'C' :: .lit 'S' :: .lit ':' :: .space :: [.int 10] := by
  decide

lemma headerLine_eq (a b : ℤ) : headerLine a b ++ ['\n'] =
    '#' :: ' ' :: 'P' :: 'A' :: 'G' :: 'E' :: 'S' :: ':' :: ' ' :: (dec a ++ (',' :: ' ' :: '#' ::
      ' ' :: 'P' :: 'R' :: 'O' :: 'C' :: 'S' :: ':' :: ' ' :: (dec b ++ ['\n']))) := by
  have h : ∀ s t : Text, s = ['#', ' ', 'P', 'A', 'G', 'E', 'S', ':', ' '] →
      t = [',', ' ', '#', ' ', 'P', 'R', 'O', 'C', 'S', ':', ' '] →
        s ++ dec a ++ t ++ dec b ++ ['\n'] = s ++ (dec a ++ (t ++ (dec b ++ ['\n']))) := by
    intro s t _ _
    simp only [List.append_assoc]
  exact h _ _ (by decide) (by decide)

lemma scan_header {a b : ℤ} (ha : 1 ≤ a ∧ a ≤ 256) (hb : 1 ≤ b ∧ b ≤ 256) :
    (scan headerFormat (headerLine a b ++ ['\n'])).1 = [.int a, .int b] := by
  have hlong : ∀ z : ℤ, 1 ≤ z ∧ z ≤ 256 → -2 ^ 63 ≤ z ∧ z < 2 ^ 63 := fun z hz => by omega
  rw [headerFormat_eq, headerLine_eq]
  rw [scan_lit, scan_space _ rfl rfl, scan_lit, scan_lit, scan_lit, scan_lit, scan_lit, scan_lit,
    scan_space_dec _ rfl, scan_int_dec _ (hlong a ha).1 (hlong a ha).2 (endsNumber_cons rfl _)]
  rw [scan_lit, scan_space _ rfl rfl, scan_lit, scan_space _ rfl rfl, scan_lit, scan_lit, scan_lit,
    scan_lit, scan_lit, scan_lit, scan_space_dec _ rfl,
    scan_int_dec _ (hlong b hb).1 (hlong b hb).2 (endsNumber_cons rfl _)]
  rfl

/-- Two numbers up to 256 and two short texts fit on a line. -/
lemma fitsLine_texts {a b : ℤ} {s t : Text} (ha : 1 ≤ a ∧ a ≤ 256) (hb : 1 ≤ b ∧ b ≤ 256)
    (hlen : s.length + t.length ≤ 20) (hend : '\n' ∉ s ++ t) (hnull : '\x00' ∉ s ++ t) :
    FitsLine 256 (s ++ dec a ++ t ++ dec b) := by
  have h1 : (dec a).length ≤ 4 := length_dec (k := 3) (by decide) (by norm_num; omega)
  have h2 : (dec b).length ≤ 4 := length_dec (k := 3) (by decide) (by norm_num; omega)
  have hmem : ∀ x : Char, x = '\n' ∨ x = '\x00' → x ∉ s ++ t → x ∉ s ++ dec a ++ t ++ dec b := by
    intro x hx hst
    have hdec : ∀ z : ℤ, x ∉ dec z := by
      intro z h
      rcases hx with rfl | rfl <;> rcases mem_dec h with h | h <;> cases h
    rw [List.mem_append, not_or] at hst
    simp only [List.mem_append, not_or]
    exact ⟨⟨⟨hst.1, hdec a⟩, hst.2⟩, hdec b⟩
  constructor
  · exact hmem _ (Or.inl rfl) hend
  · exact hmem _ (Or.inr rfl) hnull
  · simp only [List.length_append]
    omega

lemma fitsLine_header {a b : ℤ} (ha : 1 ≤ a ∧ a ≤ 256) (hb : 1 ≤ b ∧ b ≤ 256) :
    FitsLine 256 (headerLine a b) :=
  fitsLine_texts ha hb (by decide) (by decide) (by decide)

section Files
variable (percent : Int32 → Int32 → Text)

/-- The parameters that `main` finds in the arguments and in the first line. -/
lemma main_header {c : Config} (hF : c.maxPFN ≤ 256) (hV : c.maxVPN ≤ 256) (hP : c.maxPID ≤ 256)
    (policy : Int32) (hp : ReplacementPolicy.ofInt policy.toInt = some c.replacementPolicy)
    (rest : Text) (junk : VM) (v : Request) :
    main percent (Int32.ofInt c.maxPFN) policy (headerLine c.maxVPN c.maxPID ++ '\n' :: rest)
        junk v =
      .ran (bannerText c.maxVPN c.maxPFN c.maxPID policy.toInt c.replacementPolicy ++
        (mainLoop c (start c junk) v (readLines 256 rest)).1 ++
          (mainLoop c (start c junk) v (readLines 256 rest)).2.closing percent)
        (mainLoop c (start c junk) v (readLines 256 rest)).2 := by
  have h1 := c.one_le_maxPFN
  have h2 := c.one_le_maxVPN
  have h3 := c.one_le_maxPID
  have hf : (Int32.ofInt c.maxPFN).toInt = c.maxPFN := int32_ofInt_toInt (by omega) (by omega)
  have hv : (Int32.ofInt c.maxVPN).toInt = c.maxVPN := int32_ofInt_toInt (by omega) (by omega)
  have hd : (Int32.ofInt c.maxPID).toInt = c.maxPID := int32_ofInt_toInt (by omega) (by omega)
  rw [main, readLines_line (fitsLine_header ⟨h2, hV⟩ ⟨h3, hP⟩)]
  have e1 : (intValue [.int c.maxVPN, .int c.maxPID] 0).getD 0 = Int32.ofInt c.maxVPN := rfl
  have e2 : (intValue [.int c.maxVPN, .int c.maxPID] 1).getD 0 = Int32.ofInt c.maxPID := rfl
  simp only [scan_header ⟨h2, hV⟩ ⟨h3, hP⟩, hp, e1, e2, hf, hv, hd]
  rw [dif_pos ⟨⟨h2, hV⟩, ⟨h1, hF⟩, h3, hP⟩]

/-- The requests of the entries, in their order. -/
def fileRequests (entries : List Entry) : List Request :=
  entries.filterMap fun e => match e with
    | .comment _ => none
    | .request r => some r.used

lemma items_eq (entries : List Entry) :
    entries.filterMap Entry.item = (fileRequests entries).map Item.request := by
  rw [fileRequests, List.map_filterMap]
  apply List.filterMap_congr
  intro e _
  cases e <;> rfl

lemma mainLoop_fileText {entries : List Entry} (he : ∀ e ∈ entries, e.Ok) (c : Config) (s : VM)
    (v : Request) : mainLoop c s v (readLines 256 (fileText entries)) =
      runItems c s ((fileRequests entries).map Item.request) := by
  rw [mainLoop_eq_run, decode_entries he, items_eq]

/-- The variables on a stack that is zero. -/
def zeroVars : Request := ⟨0, '\x00', 0, 0⟩

/-- A write and a read of the same page behind a comment. -/
def twoRequests : List Entry :=
  [.comment "# warm up".toList, .request ⟨0, 'W', 256, 66⟩, .request ⟨0, 'R', 256, 0⟩]

lemma twoRequests_ok : ∀ e ∈ twoRequests, e.Ok := by
  have hcomment : (Entry.comment "# warm up".toList).Ok :=
    ⟨by decide, by decide, by decide, by decide⟩
  have hwrite : (⟨0, 'W', 256, 66⟩ : Request).Writable :=
    ⟨by decide, by decide, Or.inr rfl, fun _ => by decide, fun _ => by decide⟩
  have hread : (⟨0, 'R', 256, 0⟩ : Request).Writable :=
    ⟨by decide, by decide, Or.inl rfl, fun h => absurd h (by decide), fun h => absurd h (by decide)⟩
  intro e he
  simp only [twoRequests, List.mem_cons, List.not_mem_nil, or_false] at he
  rcases he with rfl | rfl | rfl
  · exact hcomment
  · exact hwrite
  · exact hread

/-- A written file is served as the requests that are written in it, wherever the comments
stand and whatever the variables hold at first. -/
theorem main_entries (c : Config) (hF : c.maxPFN ≤ 256) (hV : c.maxVPN ≤ 256) (hP : c.maxPID ≤ 256)
    (policy : Int32) (hp : ReplacementPolicy.ofInt policy.toInt = some c.replacementPolicy)
    (entries : List Entry) (he : ∀ e ∈ entries, e.Ok) (junk : VM) (v : Request) :
    main percent (Int32.ofInt c.maxPFN) policy
      (headerLine c.maxVPN c.maxPID ++ '\n' :: fileText entries) junk v =
        .ran (bannerText c.maxVPN c.maxPFN c.maxPID policy.toInt c.replacementPolicy ++
          (runItems c (start c junk) ((fileRequests entries).map Item.request)).1 ++
            (runItems c (start c junk)
              ((fileRequests entries).map Item.request)).2.closing percent)
          (runItems c (start c junk) ((fileRequests entries).map Item.request)).2 := by
  rw [main_header percent hF hV hP policy hp, mainLoop_fileText he]

end Files

theorem main_entries_twoRequests :
    main (fun _ _ => "50.00".toList) 2 2 (headerLine 3 1 ++ '\n' :: fileText twoRequests) default
      zeroVars =
        .ran (bannerText 3 2 1 2 .LRU ++
          (runItems (twoFrames .LRU) (start (twoFrames .LRU) default)
            ((fileRequests twoRequests).map Item.request)).1 ++
          (runItems (twoFrames .LRU) (start (twoFrames .LRU) default)
            ((fileRequests twoRequests).map Item.request)).2.closing fun _ _ => "50.00".toList)
          (runItems (twoFrames .LRU) (start (twoFrames .LRU) default)
            ((fileRequests twoRequests).map Item.request)).2 :=
  main_entries _ (twoFrames .LRU) (by decide) (by decide) (by decide) 2 (by decide) twoRequests
    twoRequests_ok default zeroVars

/-- Behind the header, `main` does what `run` does with the requests of the lines, whatever
the file is. -/
theorem main_ran {percent : Int32 → Int32 → Text} {maxPFN policy : Int32} {file : Text} {junk : VM}
    {out : Text} {final : Final} (h : main percent maxPFN policy file junk v = .ran out final) :
    ∃ c : Config, c.maxPFN = maxPFN.toInt ∧ c.maxPFN ≤ 256 ∧ c.maxVPN ≤ 256 ∧ c.maxPID ≤ 256 ∧
      ReplacementPolicy.ofInt policy.toInt = some c.replacementPolicy ∧
      (∃ header ∈ (readLines 256 file).head?,
        c.maxVPN = ((intValue (scan headerFormat header).1 0).getD 0).toInt ∧
        c.maxPID = ((intValue (scan headerFormat header).1 1).getD 0).toInt) ∧
      ∃ items, items = decode v (readLines 256 file).tail ∧
        out = bannerText c.maxVPN c.maxPFN c.maxPID policy.toInt c.replacementPolicy ++
          (runItems c (start c junk) items).1 ++ final.closing percent ∧
        final = (runItems c (start c junk) items).2 := by
  rw [main] at h
  cases hlines : readLines 256 file with
  | nil =>
    rw [hlines] at h
    cases h
  | cons header rest =>
    rw [hlines] at h
    cases hp : ReplacementPolicy.ofInt policy.toInt with
    | none =>
      simp only [hp] at h
      cases h
    | some p =>
      simp only [hp, mainLoop_eq_run] at h
      split_ifs at h with hsize
      obtain ⟨hout, rfl⟩ := Outcome.ran.inj h
      exact ⟨⟨p, _, _, _, hsize.2.1.1, hsize.1.1, hsize.2.2.1⟩, rfl, hsize.2.1.2, hsize.1.2,
        hsize.2.2.2, rfl, ⟨header, rfl, rfl, rfl⟩, _, rfl, hout.symm, rfl⟩

/-- Two requests that are served, and one that indexes outside of the page tables. -/
def negativePid : List Entry := twoRequests ++ [.request ⟨-1, 'R', 256, 0⟩]

def negativePidFile : Text := headerLine 3 1 ++ '\n' :: fileText negativePid

/-- What is printed for them. -/
def negativePidText : Text :=
  "[pid 0, W] 0x0100 --> 0x0000: B [miss]\n[pid 0, R] 0x0100 --> 0x0000: B [hit]\n".toList

lemma negativePid_ok : ∀ e ∈ negativePid, e.Ok := by
  have hnegative : (⟨-1, 'R', 256, 0⟩ : Request).Writable :=
    ⟨by decide, by decide, Or.inl rfl, fun h => absurd h (by decide), fun h => absurd h (by decide)⟩
  intro e he
  rcases List.mem_append.mp he with he | he
  · exact twoRequests_ok e he
  · rw [List.mem_singleton.mp he]
    exact hnegative

lemma runItems_negativePid : runItems (twoFrames .CLOCK) (start (twoFrames .CLOCK) default)
    ((fileRequests negativePid).map Item.request) = (negativePidText, .outside) := by
  apply Prod.ext
  · decide +kernel
  · rfl

theorem main_ran_negativePid :
    main (fun _ _ => []) 2 3 negativePidFile default zeroVars =
      .ran (bannerText 3 2 1 3 .CLOCK ++ negativePidText ++ []) .outside ∧
    ∃ c : Config, c.maxPFN = 2 ∧ c.replacementPolicy = .CLOCK ∧
      bannerText 3 2 1 3 .CLOCK ++ negativePidText ++ [] =
        bannerText c.maxVPN c.maxPFN c.maxPID 3 c.replacementPolicy ++
          (runItems c (start c default) (decode zeroVars (readLines 256 negativePidFile).tail)).1 ++
            [] := by
  have hmain : main (fun _ _ => []) 2 3 negativePidFile default zeroVars =
      .ran (bannerText 3 2 1 3 .CLOCK ++ negativePidText ++ []) .outside := by
    have hloop := main_header (fun _ _ => []) (c := twoFrames .CLOCK) (by decide) (by decide)
      (by decide) 3 (by decide) (fileText negativePid) default zeroVars
    rw [mainLoop_fileText negativePid_ok, runItems_negativePid] at hloop
    exact hloop
  obtain ⟨c, hF, -, -, -, hp, -, items, rfl, hout, -⟩ := main_ran hmain
  have hpolicy : c.replacementPolicy = .CLOCK := (Option.some.inj hp).symm
  exact ⟨hmain, c, hF, hpolicy, hout⟩

end OsProjects.Paging
