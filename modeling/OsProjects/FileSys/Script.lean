import OsProjects.FileSys.Intact
import OsProjects.FileSys.Main

/-!
# Written commands are read back

A script with one command on a line is run as these commands, and what is printed are their
answers.
-/

namespace OsProjects.FileSys
open Run Stdio

/-- Bytes as a text. -/
def text (b : List UInt8) : Text := b.map fun c => Char.ofNat c.toNat

lemma bytes_text (b : List UInt8) : bytes (text b) = b := by
  have hbyte : ∀ c : UInt8, UInt8.ofNat (Char.ofNat c.toNat).toNat = c := fun c => by
    rw [toNat_ofByte, UInt8.ofNat_toNat]
  unfold bytes text
  rw [List.map_map]
  exact (List.map_congr_left fun c _ => hbyte c).trans (List.map_id b)

lemma bytes_nil : bytes [] = [] := rfl

lemma length_text (b : List UInt8) : (text b).length = b.length := List.length_map ..

/-! ## One line -/

/-- The words of a command: its name, and as many arguments as there are. -/
def Line.words (l : Line) : List (List UInt8) :=
  [l.comm, l.arg1.text, l.arg2.text].take (l.numArg + 1).toNat

/-- The line of a command, without its end. -/
def Line.body (l : Line) : Text := [' '].intercalate (l.words.map text)

def Line.typed (l : Line) : Text := l.body ++ ['\n']

/-- A byte that can be in a word. -/
def Plain (c : UInt8) : Prop := isSpace (Char.ofNat c.toNat) = false ∧ c ≠ 0

instance : DecidablePred Plain := fun c =>
  inferInstanceAs (Decidable (isSpace (Char.ofNat c.toNat) = false ∧ c ≠ 0))

/-- A command that can be typed, an empty line included.  What is missing is empty. -/
structure Line.Typable (l : Line) : Prop where
  numArg : l.numArg = -2 ∨ l.numArg = 0 ∨ l.numArg = 1 ∨ l.numArg = 2
  comm : l.comm = [] ↔ l.numArg < 0
  arg1 : l.arg1.text = [] ↔ l.numArg < 1
  arg2 : l.arg2.text = [] ↔ l.numArg < 2
  plain : ∀ w ∈ [l.comm, l.arg1.text, l.arg2.text], ∀ c ∈ w, Plain c
  length : l.comm.length ≤ 63
  ne_quit : l.comm ≠ str "quit"
  ne_exit : l.comm ≠ str "exit"

lemma ofBytes_eq {b : List UInt8} {w : Word} (hb : b.length ≤ 15) (h : b = w.text) :
    Word.ofBytes b hb = w := by
  have htext : w.text.takeWhile (· ≠ 0) = w.text := by
    rw [List.takeWhile_eq_self_iff]
    intro c hc
    exact decide_eq_true (ne_of_mem_of_not_mem hc w.ne_zero)
  subst h
  unfold Word.ofBytes
  cases w
  simp only [htext]

section Typed
variable {l : Line} (h : l.Typable)
include h

/-- How many words there are. -/
lemma Line.Typable.words_cases :
    (l.numArg = -2 ∧ l.words = [] ∧ l.comm = [] ∧ l.arg1.text = [] ∧ l.arg2.text = []) ∨
    (l.numArg = 0 ∧ l.words = [l.comm] ∧ l.arg1.text = [] ∧ l.arg2.text = []) ∨
    (l.numArg = 1 ∧ l.words = [l.comm, l.arg1.text] ∧ l.arg2.text = []) ∨
    (l.numArg = 2 ∧ l.words = [l.comm, l.arg1.text, l.arg2.text]) := by
  have hcomm := h.comm
  have harg1 := h.arg1
  have harg2 := h.arg2
  unfold Line.words
  rcases h.numArg with hn | hn | hn | hn
  · rw [hn] at hcomm harg1 harg2 ⊢
    exact Or.inl ⟨rfl, rfl, hcomm.mpr (by decide), harg1.mpr (by decide), harg2.mpr (by decide)⟩
  · rw [hn] at harg1 harg2 ⊢
    exact Or.inr (Or.inl ⟨rfl, rfl, harg1.mpr (by decide), harg2.mpr (by decide)⟩)
  · rw [hn] at harg2 ⊢
    exact Or.inr (Or.inr (Or.inl ⟨rfl, rfl, harg2.mpr (by decide)⟩))
  · rw [hn]
    exact Or.inr (Or.inr (Or.inr ⟨rfl, rfl⟩))

/-- A word that is missing is read as an empty one. -/
lemma Line.Typable.getD_words (k : ℕ) : bytes ((l.words.map text).getD k []) =
    [l.comm, l.arg1.text, l.arg2.text].getD k [] := by
  rcases h.words_cases with ⟨-, hws, h0, h1, h2⟩ | ⟨-, hws, h1, h2⟩ | ⟨-, hws, h2⟩ | ⟨-, hws⟩
  · rw [hws, h0, h1, h2]
    rcases k with _ | _ | _ | k <;> simp [bytes_nil]
  · rw [hws, h1, h2]
    rcases k with _ | _ | _ | k <;> simp [bytes_text, bytes_nil]
  · rw [hws, h2]
    rcases k with _ | _ | _ | k <;> simp [bytes_text, bytes_nil]
  · rw [hws]
    rcases k with _ | _ | _ | k <;> simp [bytes_text, bytes_nil]

lemma Line.Typable.words_ne_nil {w : List UInt8} (hw : w ∈ l.words) : w ≠ [] := by
  have hcomm : 0 ≤ l.numArg → l.comm ≠ [] := fun hn hnil => absurd (h.comm.mp hnil) (by omega)
  have harg1 : 1 ≤ l.numArg → l.arg1.text ≠ [] := fun hn hnil => absurd (h.arg1.mp hnil) (by omega)
  have harg2 : 2 ≤ l.numArg → l.arg2.text ≠ [] := fun hn hnil => absurd (h.arg2.mp hnil) (by omega)
  rcases h.words_cases with ⟨hn, hws, -⟩ | ⟨hn, hws, -⟩ | ⟨hn, hws, -⟩ | ⟨hn, hws⟩
  all_goals
    rw [hn] at hcomm harg1 harg2
    rw [hws] at hw
    simp only [List.not_mem_nil, List.mem_cons, or_false] at hw
  · rw [hw]
    exact hcomm le_rfl
  · rcases hw with rfl | rfl
    · exact hcomm (by decide)
    · exact harg1 le_rfl
  · rcases hw with rfl | rfl | rfl
    · exact hcomm (by decide)
    · exact harg1 (by decide)
    · exact harg2 le_rfl

lemma Line.Typable.isWord : ∀ w ∈ l.words.map text, IsWord w := by
  intro t ht
  obtain ⟨w, hw, rfl⟩ := List.mem_map.mp ht
  have hplain := h.plain w (List.mem_of_mem_take hw)
  constructor
  · intro hnil
    exact h.words_ne_nil hw (List.map_eq_nil_iff.mp hnil)
  · intro c hc
    obtain ⟨b, hb, rfl⟩ := List.mem_map.mp hc
    exact (hplain b hb).1

lemma Line.Typable.scanWords_typed : scanWords 3 l.typed = l.words.map text := by
  have hlength : (l.words.map text).length ≤ 3 := by
    rw [List.length_map]
    exact List.length_take_le' _ _
  unfold Line.typed Line.body
  rw [scanWords_line h.isWord, List.take_of_length_le hlength]

lemma Line.Typable.fitsLine : FitsLine 112 l.body := by
  have hmem : ∀ c ∈ l.body, c = ' ' ∨ isSpace c = false ∧ c ≠ '\x00' := by
    intro c hc
    rcases mem_intercalate hc with hspace | ⟨t, ht, hct⟩
    · exact Or.inl hspace
    · obtain ⟨w, hw, rfl⟩ := List.mem_map.mp ht
      obtain ⟨b, hb, rfl⟩ := List.mem_map.mp hct
      have hplain := h.plain w (List.mem_of_mem_take hw) b hb
      refine Or.inr ⟨hplain.1, fun hnull => hplain.2 ?_⟩
      have hnat := congrArg Char.toNat hnull
      rw [toNat_ofByte] at hnat
      exact UInt8.toNat_inj.mp hnat
  have hlength : l.body.length ≤ 63 + 1 + 15 + 1 + 15 := by
    have hcomm := h.length
    have harg1 := l.arg1.length_le
    have harg2 := l.arg2.length_le
    unfold Line.body
    rcases h.words_cases with ⟨-, hws, -⟩ | ⟨-, hws, -⟩ | ⟨-, hws, -⟩ | ⟨-, hws⟩
    · rw [hws]
      exact Nat.zero_le _
    all_goals
      rw [hws]
      simp [List.intercalate, length_text]
      omega
  constructor
  · intro hend
    rcases hmem _ hend with hspace | ⟨hspace, -⟩
    · cases hspace
    · cases hspace
  · intro hnull
    rcases hmem _ hnull with hspace | ⟨-, hne⟩
    · cases hspace
    · exact hne rfl
  · omega

lemma Line.Typable.cstr_typed : cstr l.typed = l.typed := cstr_line h.fitsLine

/-- A command that has been typed is the command that is run. -/
lemma Line.Typable.turn_typed : turn l.typed = .command l := by
  have hlength : ¬ l.typed.length ≥ 112 := by
    have hfits := h.fitsLine.length
    unfold Line.typed
    rw [List.length_append, List.length_singleton]
    omega
  have hwords : scanWords 3 (cstr l.typed) = l.words.map text := by
    rw [h.cstr_typed, h.scanWords_typed]
  have hcomm : bytes ((scanWords 3 (cstr l.typed)).getD 0 []) = l.comm := by
    rw [hwords, h.getD_words]
    rfl
  have harg1 : bytes ((scanWords 3 (cstr l.typed)).getD 1 []) = l.arg1.text := by
    rw [hwords, h.getD_words]
    rfl
  have harg2 : bytes ((scanWords 3 (cstr l.typed)).getD 2 []) = l.arg2.text := by
    rw [hwords, h.getD_words]
    rfl
  have hnum : (if scanWords 3 (cstr l.typed) = [] then -1
      else ((scanWords 3 (cstr l.typed)).length : ℤ)) - 1 = l.numArg := by
    rw [hwords]
    rcases h.words_cases with ⟨hn, hws, -⟩ | ⟨hn, hws, -⟩ | ⟨hn, hws, -⟩ | ⟨hn, hws⟩
    all_goals
      rw [hn, hws]
      rfl
  have hfits : (bytes ((scanWords 3 (cstr l.typed)).getD 0 [])).length ≤ 63 ∧
      (bytes ((scanWords 3 (cstr l.typed)).getD 1 [])).length ≤ 15 ∧
      (bytes ((scanWords 3 (cstr l.typed)).getD 2 [])).length ≤ 15 := by
    rw [hcomm, harg1, harg2]
    exact ⟨h.length, l.arg1.length_le, l.arg2.length_le⟩
  unfold turn
  rw [if_neg hlength]
  dsimp only
  rw [dif_pos hfits, if_neg, if_neg]
  · obtain ⟨comm, arg1, arg2, numArg⟩ := l
    rw [Turn.command.injEq, Line.mk.injEq]
    exact ⟨hcomm, ofBytes_eq _ harg1, ofBytes_eq _ harg2, hnum⟩
  · rw [hcomm, command_ne h.ne_exit]
    exact Bool.false_ne_true
  · rw [hcomm, command_ne h.ne_quit]
    exact Bool.false_ne_true

end Typed

/-! ## Scripts -/

def script (lines : List Line) : Text := lines.flatMap Line.typed

/-- How a script can end, and what is printed for it. -/
inductive Closing : Text → List UInt8 → Prop
  | eof : Closing [] []
  | quit (rest : Text) : Closing ("quit".toList ++ '\n' :: rest) (str "command: quit\n")
  | exit (rest : Text) : Closing ("exit".toList ++ '\n' :: rest) (str "command: exit\n")

/-- The commands and their answers. -/
def dialogue : List (Junk × Line) → FS → List UInt8
  | [], _ => []
  | l :: lines, s =>
    str "command: " ++ bytes l.2.typed ++ (next s.quiet l).stdout ++ str "\n% " ++
      dialogue lines (next s.quiet l)

section Scripts
variable {lines : List Line} {tail : Text} {echo : List UInt8}

lemma storedLines_script (h : ∀ l ∈ lines, l.Typable) (rest : Text) :
    storedLines 256 (script lines ++ rest) = lines.map Line.typed ++ storedLines 256 rest := by
  induction lines with
  | nil => rfl
  | cons l lines ih =>
    have hfits : FitsLine 256 l.body :=
      { (h l List.mem_cons_self).fitsLine with
        length := (h l List.mem_cons_self).fitsLine.length.trans (by decide) }
    have hfirst : script (l :: lines) ++ rest = l.body ++ '\n' :: (script lines ++ rest) := by
      unfold script Line.typed
      rw [List.flatMap_cons, List.append_assoc, List.append_assoc, List.singleton_append]
    rw [hfirst, storedLines_line hfits, ih fun l' hl' => h l' (List.mem_cons_of_mem _ hl')]
    rfl

lemma commands_typed (h : ∀ l ∈ lines, l.Typable) (rest : List Text) :
    commands (lines.map Line.typed ++ rest) = (commands rest).map (lines ++ ·) := by
  induction lines with
  | nil => exact (Option.map_id' ..).symm
  | cons l lines ih =>
    rw [List.map_cons, List.cons_append, commands, (h l List.mem_cons_self).turn_typed]
    dsimp only
    rw [ih fun l' hl' => h l' (List.mem_cons_of_mem _ hl'), Option.map_map]
    rfl

lemma transcript_typed (h : ∀ l ∈ lines, l.Typable) (junk : ℕ → Junk) (k : ℕ) {rest : List Text}
    (hrest : ∀ k s, transcript junk k rest s = echo) (s : FS) :
    transcript junk k (lines.map Line.typed ++ rest) s =
      dialogue (withJunk junk k lines) s ++ echo := by
  induction lines generalizing k s with
  | nil => exact hrest k s
  | cons l lines ih =>
    rw [List.map_cons, List.cons_append, transcript, (h l List.mem_cons_self).turn_typed,
      (h l List.mem_cons_self).cstr_typed]
    dsimp only
    have hcons : withJunk junk k (l :: lines) = (junk k, l) :: withJunk junk (k + 1) lines := rfl
    rw [ih fun l' hl' => h l' (List.mem_cons_of_mem _ hl'), hcons, dialogue]
    simp only [List.append_assoc]
    rfl

lemma Closing.commands (h : Closing tail echo) : commands (storedLines 256 tail) = some [] := by
  cases h with
  | eof => rfl
  | quit rest =>
    have hturn : turn ("quit".toList ++ ['\n']) = .quit := rfl
    rw [storedLines_line ⟨by decide, by decide, by decide⟩, FileSys.commands, hturn]
  | exit rest =>
    have hturn : turn ("exit".toList ++ ['\n']) = .quit := rfl
    rw [storedLines_line ⟨by decide, by decide, by decide⟩, FileSys.commands, hturn]

lemma Closing.transcript (h : Closing tail echo) (junk : ℕ → Junk) (k : ℕ) (s : FS) :
    transcript junk k (storedLines 256 tail) s = echo := by
  cases h with
  | eof => rfl
  | quit rest =>
    have hturn : turn ("quit".toList ++ ['\n']) = .quit := rfl
    rw [storedLines_line ⟨by decide, by decide, by decide⟩, FileSys.transcript, hturn]
    rfl
  | exit rest =>
    have hturn : turn ("exit".toList ++ ['\n']) = .quit := rfl
    rw [storedLines_line ⟨by decide, by decide, by decide⟩, FileSys.transcript, hturn]
    rfl

end Scripts

/-! ## Sessions -/

section Sessions
variable {file : Option (ℤ → Block)} {input : Text} {s : FS} {lines : List Line}

lemma main_overflow (hmount : mount file = some s)
    (hlines : commands (storedLines 256 input) = none) (junk : ℕ → Junk) (last : Junk) :
    main junk last file input = .overflow := by
  have hs := quiet_behind_stdout (printf (s.behind banner) (str "% "))
  unfold main
  rw [hmount]
  dsimp only
  rw [← hs, mainLoop_eq, hlines]
  rfl

/-- What a session does to a disk that can be mounted. -/
lemma main_done (hmount : mount file = some s)
    (hlines : commands (storedLines 256 input) = some lines) (junk : ℕ → Junk) (last : Junk) :
    main junk last file input =
      .done ((fsUmount last (runCommands (withJunk junk 0 lines) s).quiet).behind
        (banner ++ s.stdout ++ str "% " ++ transcript junk 0 (storedLines 256 input) s)) := by
  have hstart : printf (s.behind banner) (str "% ") =
      s.quiet.behind (banner ++ s.stdout ++ str "% ") := by
    have hs := quiet_behind_stdout s
    conv_lhs => rw [← hs]
    rw [behind_behind, printf_quiet_behind]
  unfold main
  rw [hmount]
  dsimp only
  rw [hstart, mainLoop_eq, hlines]
  dsimp only [Option.map]
  rw [fsUmount_behind]

end Sessions

/-- A command name and an argument, as they are typed. -/
def Line.one (comm : List UInt8) (arg1 : Word) : Line := ⟨comm, arg1, Word.none, 1⟩

def dirSession : List Line := [.one (str "mkdir") Word.d, .one (str "cd") Word.d]

lemma dirSession_typable : ∀ l ∈ dirSession, l.Typable := by
  have hmkdir : (Line.one (str "mkdir") Word.d).Typable :=
    ⟨by decide, by decide, by decide, by decide, by decide +kernel, by decide, by decide, by decide⟩
  have hcd : (Line.one (str "cd") Word.d).Typable :=
    ⟨by decide, by decide, by decide, by decide, by decide +kernel, by decide, by decide, by decide⟩
  intro l hl
  rcases List.mem_cons.mp hl with rfl | hl
  · exact hmkdir
  · rw [List.mem_singleton.mp hl]
    exact hcd

lemma commands_dirSession :
    commands (storedLines 256 (script dirSession ++ [])) = some dirSession := by
  rw [storedLines_script dirSession_typable, commands_typed dirSession_typable]
  rfl

lemma dirSession_orderly :
    Each next Orderly (withJunk (fun _ => Junk.zero) 0 dirSession) fsMountNew := by
  refine ⟨?_, ?_, trivial⟩
  · refine ⟨fun _ => ⟨132, by decide, by decide, ?_⟩, fun h => ?_, fun h => ?_, fun h => ?_⟩
    · have hbit := fsMountNew_fresh.blockMap 132
      rw [← Bool.not_eq_true, hbit]
      decide
    · exact absurd h (by decide)
    · exact absurd h (by decide)
    · exact absurd h (by decide)
  · refine ⟨fun h => ?_, fun h => ?_, fun h => ?_, fun h => ?_⟩
    all_goals exact absurd h (by decide)

/-- On a disk in order, whatever the input is: as long as its commands are orderly they leave the
disk in order, and the session runs over exactly if a line in front of `quit` does.  If none does,
it runs the commands of its lines up to `quit`, and prints nothing but their answers between the
prompts. -/
theorem session_outcome {file : Option (ℤ → Block)} {s : FS} (hmount : mount file = some s)
    (hs : Intact s) (junk : ℕ → Junk) (last : Junk) (input : Text)
    (horderly : Each next Orderly (withJunk junk 0 (executed (storedLines 256 input))) s) :
    Intact (runCommands (withJunk junk 0 (executed (storedLines 256 input))) s) ∧
    (main junk last file input = .overflow ↔ Overruns (storedLines 256 input)) ∧
    (¬ Overruns (storedLines 256 input) → main junk last file input =
      .done ((fsUmount last
        (runCommands (withJunk junk 0 (executed (storedLines 256 input))) s).quiet).behind
          (banner ++ s.stdout ++ str "% " ++ transcript junk 0 (storedLines 256 input) s))) := by
  rw [← commands_eq_none_iff]
  refine ⟨inv_of_each (fun _ _ hs hl => hs.next hl) hs horderly, ?_⟩
  cases hlines : commands (storedLines 256 input) with
  | none => exact ⟨iff_of_true (main_overflow hmount hlines junk last) rfl, fun h => absurd rfl h⟩
  | some lines =>
    have hdone := main_done hmount hlines junk last
    rw [executed_eq hlines, hdone]
    exact ⟨iff_of_false nofun nofun, fun _ => rfl⟩

theorem session_outcome_dirSession : ∃ s,
    main (fun _ => Junk.zero) Junk.zero none (script dirSession ++ []) = .done s := by
  have hlines := commands_dirSession
  have horderly := dirSession_orderly
  rw [← executed_eq hlines] at horderly
  have hnot : ¬ Overruns (storedLines 256 (script dirSession ++ [])) := by
    rw [← commands_eq_none_iff, hlines]
    exact nofun
  exact ⟨_, (session_outcome rfl fsMountNew_intact _ Junk.zero _ horderly).2.2 hnot⟩

/-- A script with one command on a line does what these commands do, and prints their answers. -/
theorem main_script {file : Option (ℤ → Block)} {s : FS} {lines : List Line} {tail : Text}
    {echo : List UInt8} (hmount : mount file = some s) (hlines : ∀ l ∈ lines, l.Typable)
    (htail : Closing tail echo) (junk : ℕ → Junk) (last : Junk) :
    main junk last file (script lines ++ tail) =
      .done ((fsUmount last (runCommands (withJunk junk 0 lines) s).quiet).behind
        (banner ++ s.stdout ++ str "% " ++ dialogue (withJunk junk 0 lines) s ++ echo)) := by
  have hread := storedLines_script hlines tail
  have hcommands : commands (storedLines 256 (script lines ++ tail)) = some lines := by
    rw [hread, commands_typed hlines, htail.commands, Option.map_some, List.append_nil]
  rw [main_done hmount hcommands, hread, transcript_typed hlines junk 0 (htail.transcript junk),
    List.append_assoc _ _ echo]

theorem main_script_dirSession :
    main (fun _ => Junk.zero) Junk.zero none (script dirSession ++ ("quit".toList ++ '\n' :: [])) =
      .done ((fsUmount Junk.zero (runCommands (withJunk (fun _ => Junk.zero) 0 dirSession)
        fsMountNew).quiet).behind (banner ++ fsMountNew.stdout ++ str "% " ++
          dialogue (withJunk (fun _ => Junk.zero) 0 dirSession) fsMountNew ++
            str "command: quit\n")) :=
  main_script rfl dirSession_typable (.quit []) _ _

end OsProjects.FileSys
