import Brainfuck.Proofs.CommandLine.Compiling
import Brainfuck.Proofs.CommandLine.Executing
import Brainfuck.Proofs.FileSystem.Writing

/-!
What the command line leaves in the file system. A session that generates a file writes once, and
only when it has the whole text: after it either the files are as they were, or one path has the
whole text behind it and no other place has changed (`answer_changes_output_only`).
-/

namespace Brainfuck.CommandLine

variable {options : Options} {host after : Host} {result : Except Failure Unit}

/-- The whole text has been saved, behind a path that is not spelled like the input. -/
def Host.HasSaved (host : Host) (options : Options) (after : Host) : Prop :=
  ∃ text, host.text options = .ok text ∧ Path.alike options.file options.input = false ∧
    host.files.write options.file (Source.ofText text) = .ok after.files

/-- After the file has been written, the files stay as they are. -/
theorem Finishing.files_eq (finishing : Finishing options host result after) :
    after.files = host.files := by
  cases finishing with
  | unnamed _ untouched => exact untouched.files
  | hinted _ _ files _ => exact files
  | built _ _ files _ => exact files

/-- A text that is not generated leaves the host untouched. -/
theorem Compiling.of_error {failure : Failure} (compiling : Compiling options host result after)
    (generated : host.text options = .error failure) :
    result = .error failure ∧ host.Untouched after := by
  cases compiling with
  | failed generated' untouched =>
      cases generated.symm.trans generated'
      exact ⟨rfl, untouched⟩
  | refused generated' => cases generated.symm.trans generated'
  | unwritten generated' => cases generated.symm.trans generated'
  | written generated' => cases generated.symm.trans generated'

/-- The files change only where the whole text is saved. -/
theorem Compiling.files_eq_or_hasSaved (compiling : Compiling options host result after) :
    after.files = host.files ∨ host.HasSaved options after := by
  cases compiling with
  | failed _ untouched => exact .inl untouched.files
  | refused _ _ untouched => exact .inl untouched.files
  | unwritten _ _ _ untouched => exact .inl untouched.files
  | written generated apart write rest =>
      exact .inr ⟨_, generated, apart, rest.files_eq ▸ write⟩

/-- The command line changes nothing but the file that is to be written, and this only to hold the
whole text. To execute a program, it never asks for a file to be written. Else it always ends: if
the text is not generated, with status 1, nothing printed and all files as they were; and if it is,
the files are as they were at every place but the one that the path leads to, and this path reads as
the text unless they have not changed at all. -/
theorem answer_changes_output_only {arguments : List String}
    (started : Request.ofArguments arguments = .start options) (fuel : Nat) (host : Host) :
    (options.mode = .execute → (answer arguments).IsReadOnly ∧
      ∀ ending after, Host.serve fuel (answer arguments) host = some (ending, after) →
        after.files = host.files) ∧
    (options.mode ≠ .execute → ∃ ending after,
      Host.serve fuel (answer arguments) host = some (ending, after) ∧
      ((∃ failure, host.text options = .error failure) →
        ending.status = 1 ∧ after.stdout = host.stdout ∧ after.files = host.files) ∧
      ∀ text, host.text options = .ok text →
        after.files = host.files ∨
        after.files.read options.file = .ok (Source.ofText text) ∧
          ∃ t, host.files.target options.file = .ok t ∧
            ∀ place, place ≠ t.location → after.files.node? place = host.files.node? place) := by
  refine ⟨fun mode => ?_, fun mode => ?_⟩
  · have readOnly := isReadOnly_answer started mode
    exact ⟨readOnly, fun ending after served => readOnly.files_of_serve served⟩
  · obtain ⟨result, after, served, compiling⟩ := exists_serve_answer started mode fuel host
    refine ⟨(after.conclude result).1, (after.conclude result).2, served, ?_, ?_⟩
    · rintro ⟨failure, generated⟩
      obtain ⟨rfl, untouched⟩ := compiling.of_error generated
      exact ⟨rfl, untouched.stdout, untouched.files⟩
    · intro text generated
      rw [Host.files_conclude]
      rcases compiling.files_eq_or_hasSaved with same | ⟨text', generated', -, write⟩
      · exact .inl same
      · cases generated.symm.trans generated'
        obtain ⟨t, followed, -⟩ := FileSystem.write_eq_ok_iff.mp write
        exact .inr ⟨FileSystem.read_of_write write, t, followed,
          fun place elsewhere => FileSystem.node?_of_write followed write elsewhere⟩

/-- A loop without an end leaves all files as they are; a program leaves its text behind `-o`. -/
theorem answer_changes_output_only_two_programs :
    (Request.ofArguments ["p"] = .start { input := "p" } ∧
      ∃ ending after,
        Host.serve 0 (answer ["p"]) { files := ⟨[], [], [(["p"], [91])]⟩ } = some (ending, after) ∧
        ending.status = 1 ∧ after.files = ⟨[], [], [(["p"], [91])]⟩) ∧
    Request.ofArguments ["p", "-o", "q"] = .start { input := "p", output := some "q" } ∧
      ∃ ending after,
        Host.serve 0 (answer ["p", "-o", "q"]) { files := ⟨[], [], [(["p"], [43])]⟩ } =
          some (ending, after) ∧
        ∃ text, Host.text { files := ⟨[], [], [(["p"], [43])]⟩ }
            { input := "p", output := some "q" } = .ok text ∧
          after.files.read "q" = .ok (Source.ofText text) := by
  constructor
  · have started : Request.ofArguments ["p"] = .start { input := "p" } := by decide
    obtain ⟨ending, after, served, failed, -⟩ :=
      (answer_changes_output_only started 0 { files := ⟨[], [], [(["p"], [91])]⟩ }).2 (by decide)
    have generated : Host.text { files := ⟨[], [], [(["p"], [91])]⟩ } { input := "p" } =
      .error (.library (.unbalancedLoop ⟨0, 0⟩)) := by decide +kernel
    obtain ⟨status, -, files⟩ := failed ⟨_, generated⟩
    exact ⟨started, ending, after, served, status, files⟩
  · have started : Request.ofArguments ["p", "-o", "q"] =
      .start { input := "p", output := some "q" } := by decide
    obtain ⟨ending, after, served, -, written⟩ :=
      (answer_changes_output_only started 0 { files := ⟨[], [], [(["p"], [43])]⟩ }).2 (by decide)
    obtain ⟨text, generated⟩ : ∃ text, Host.text { files := ⟨[], [], [(["p"], [43])]⟩ }
      { input := "p", output := some "q" } = .ok text := exists_eq_ok_of_isOk (by decide +kernel)
    have changed : (Host.serve 0 (answer ["p", "-o", "q"])
        { files := ⟨[], [], [(["p"], [43])]⟩ }).map (·.2.files) ≠
        some ⟨[], [], [(["p"], [43])]⟩ := by decide +kernel
    rw [served] at changed
    rcases written text generated with same | ⟨readBack, -⟩
    · exact absurd (congrArg some same) changed
    · exact ⟨started, ending, after, served, text, generated, readBack⟩

end Brainfuck.CommandLine
