import OsProjects.FileSys.FileSteps

/-!
# Which command runs

Seven commands may change the file system.  With any other word `execute_command` prints
something at most.
-/

namespace OsProjects.FileSys

lemma command_self (a : List UInt8) : command a a = true := command_iff.mpr rfl

lemma command_ne {a b : List UInt8} (h : a ≠ b) : command a b = false :=
  Bool.eq_false_of_not_eq_true fun heq => h (command_iff.mp heq)

section
variable (junk : Junk) (arg1 arg2 : Word) (numArg : ℤ) (s : FS)

lemma executeCommand_create :
    executeCommand junk ⟨str "create", arg1, arg2, numArg⟩ s =
      if numArg < 2 then (-1, printf s (str "error: create <filename> <size>\n"))
      else fileCreate junk arg1.text (atoi arg2.text) s := by
  unfold executeCommand
  simp only [command_self, if_true]

lemma executeCommand_rm :
    executeCommand junk ⟨str "rm", arg1, arg2, numArg⟩ s =
      if numArg < 1 then (-1, printf s (str "error: rm <filename>\n"))
      else fileRemove junk arg1.text s := by
  unfold executeCommand
  simp (disch := decide) only [command_ne, command_self, Bool.false_eq_true, if_false, if_true]

lemma executeCommand_mkdir :
    executeCommand junk ⟨str "mkdir", arg1, arg2, numArg⟩ s =
      if numArg < 1 then (-1, printf s (str "error: mkdir <dirname>\n"))
      else dirMake junk arg1.text s := by
  unfold executeCommand
  simp (disch := decide) only [command_ne, command_self, Bool.false_eq_true, if_false, if_true]

lemma executeCommand_rmdir :
    executeCommand junk ⟨str "rmdir", arg1, arg2, numArg⟩ s =
      if numArg < 1 then (-1, printf s (str "error: rmdir <dirname>\n"))
      else dirRemove junk arg1.text s := by
  unfold executeCommand
  simp (disch := decide) only [command_ne, command_self, Bool.false_eq_true, if_false, if_true]

lemma executeCommand_cd :
    executeCommand junk ⟨str "cd", arg1, arg2, numArg⟩ s =
      if numArg < 1 then (-1, printf s (str "error: cd <dirname>\n"))
      else dirChange arg1.text s := by
  unfold executeCommand
  simp (disch := decide) only [command_ne, command_self, Bool.false_eq_true, if_false, if_true]

lemma executeCommand_ln :
    executeCommand junk ⟨str "ln", arg1, arg2, numArg⟩ s =
      if numArg < 2 then (-1, printf s (str "error: ln <src> <dest>\n"))
      else hardLink arg1.text arg2.text s := by
  unfold executeCommand
  simp (disch := decide) only [command_ne, command_self, Bool.false_eq_true, if_false, if_true]

lemma executeCommand_cp :
    executeCommand junk ⟨str "cp", arg1, arg2, numArg⟩ s =
      if numArg < 2 then (-1, printf s (str "error: cp <src> <dest>\n"))
      else fileCopy junk arg1.text arg2.text s := by
  unfold executeCommand
  simp (disch := decide) only [command_ne, command_self, Bool.false_eq_true, if_false, if_true]

end

def changers : List (List UInt8) :=
  [str "create", str "rm", str "mkdir", str "rmdir", str "cd", str "ln", str "cp"]

lemma executeCommand_printed (junk : Junk) {line : Line} (hline : line.comm ∉ changers) (s : FS) :
    Printed s (executeCommand junk line s).2 := by
  obtain ⟨comm, arg1, arg2, numArg⟩ := line
  have hnot : ∀ comm' ∈ changers, command comm comm' = false := by
    intro comm' hcomm
    apply command_ne
    rintro rfl
    exact hline hcomm
  have hcreate := hnot (str "create") (by decide)
  have hrm := hnot (str "rm") (by decide)
  have hmkdir := hnot (str "mkdir") (by decide)
  have hrmdir := hnot (str "rmdir") (by decide)
  have hcd := hnot (str "cd") (by decide)
  have hln := hnot (str "ln") (by decide)
  have hcp := hnot (str "cp") (by decide)
  unfold executeCommand
  simp only [hcreate, hrm, hmkdir, hrmdir, hcd, hln, hcp, Bool.false_eq_true, if_false]
  split_ifs
  · exact Printed.printf s _
  · exact fileCat_printed junk _ s
  · exact ls_printed s
  · exact Printed.printf s _
  · exact fileStat_printed junk _ s
  · exact fsStat_printed junk s
  · exact Printed.refl s

end OsProjects.FileSys
