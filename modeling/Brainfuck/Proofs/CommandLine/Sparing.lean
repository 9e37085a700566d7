import Brainfuck.Proofs.CommandLine.Footprint
import Brainfuck.Proofs.FileSystem.Following
import Brainfuck.Proofs.Source.Marks

/-!
What becomes of the input. The command line compares spellings before it writes a file and before it
names an executable, so neither is spelled like the input. This keeps the input as it was, unless a
dot in front of one of two relative paths is all that tells the spellings apart
(`answer_spares_input`). Such a dot gets past the comparison, and the input is overwritten
(`answer_overwrites_input_behind_dot`).
-/

namespace Brainfuck.CommandLine

variable {options : Options} {host after : Host} {result : Except Failure Unit}

/-- An executable is named like neither the input nor the file that is written. -/
theorem alike_executableFile {input output executable : String}
    (name : executableFile input output = .ok executable) :
    Path.alike executable input = false ∧ Path.alike executable output = false := by
  unfold executableFile at name
  simp only [Bool.and_eq_true, Bool.not_eq_true'] at name
  split at name
  · cases name
    assumption
  · split at name
    · cases name
      assumption
    · cases name

/-- The only command that is started is the compiler, for an executable with a name of its own. -/
theorem Finishing.launched_eq (finishing : Finishing options host result after) :
    after.launched = host.launched ∨ ∃ executable,
      executableFile options.input options.file = .ok executable ∧
      after.launched =
        (options.compiler, ["-O2", host.temporary, "-o", executable]) :: host.launched := by
  cases finishing with
  | unnamed _ untouched => exact .inl untouched.launched
  | hinted _ _ _ launched => exact .inl launched
  | built name _ _ launched => exact .inr ⟨_, name, launched⟩

theorem Compiling.launched_eq (compiling : Compiling options host result after) :
    after.launched = host.launched ∨ ∃ executable,
      executableFile options.input options.file = .ok executable ∧
      after.launched =
        (options.compiler, ["-O2", host.temporary, "-o", executable]) :: host.launched := by
  cases compiling with
  | failed _ untouched => exact .inl untouched.launched
  | refused _ _ untouched => exact .inl untouched.launched
  | unwritten _ _ _ untouched => exact .inl untouched.launched
  | written _ _ _ rest => exact rest.launched_eq

theorem exists_read_of_text {text : String} (generated : host.text options = .ok text)
    (named : options.input ≠ "-") : ∃ bytes, host.files.read options.input = .ok bytes := by
  obtain ⟨bytes, _, _, source, -, -, -⟩ := Host.text_eq_ok_iff.mp generated
  rw [Host.source, if_neg named, mapError_eq_ok_iff] at source
  exact ⟨bytes, source⟩

/-- Neither the file that is written nor the executable that the compiler is to make reduces to the
same pieces as the input, if it begins like the input. So where neither path has a step up, and both
are absolute or neither is, the input reads afterwards as it did before. There is one exception: the
paths are relative and differ in nothing that is said but a dot in front of one of them. Then the
input may also read as the text that was written. -/
theorem answer_spares_input {arguments : List String}
    (started : Request.ofArguments arguments = .start options) (mode : options.mode ≠ .execute)
    (named : options.input ≠ "-") (fuel : Nat) (host : Host) :
    ∃ ending after, Host.serve fuel (answer arguments) host = some (ending, after) ∧
      (after.files = host.files ∨
        (Path.lead options.file = Path.lead options.input →
          Path.reduced options.file ≠ Path.reduced options.input)) ∧
      (after.launched = host.launched ∨ ∃ executable,
        after.launched =
          (options.compiler, ["-O2", host.temporary, "-o", executable]) :: host.launched ∧
        (Path.lead executable = Path.lead options.input →
          Path.reduced executable ≠ Path.reduced options.input)) ∧
      (Path.isAbsolute options.file = Path.isAbsolute options.input →
        ['.', '.'] ∉ Path.pieces options.file → ['.', '.'] ∉ Path.pieces options.input →
        after.files.read options.input = host.files.read options.input ∨
        Path.isAbsolute options.file = false ∧
          Path.isDotted options.file ≠ Path.isDotted options.input ∧
          Path.reduced options.file = Path.reduced options.input ∧
          ∃ text, host.text options = .ok text ∧
            after.files.read options.input = .ok (Source.ofText text)) := by
  obtain ⟨result, after, served, compiling⟩ := exists_serve_answer started mode fuel host
  refine ⟨(after.conclude result).1, (after.conclude result).2, served, ?_, ?_, ?_⟩
  · rw [Host.files_conclude]
    rcases compiling.files_eq_or_hasSaved with same | ⟨_, -, apart, -⟩
    · exact .inl same
    · exact .inr (Path.reduced_ne_of_alike apart)
  · rw [Host.launched_conclude]
    rcases compiling.launched_eq with same | ⟨executable, name, launched⟩
    · exact .inl same
    · exact .inr ⟨executable, launched, Path.reduced_ne_of_alike (alike_executableFile name).1⟩
  · intro start down down'
    rw [Host.files_conclude]
    rcases compiling.files_eq_or_hasSaved with same | ⟨text, generated, apart, write⟩
    · exact .inl (by rw [same])
    · obtain ⟨t, followed, -⟩ := FileSystem.write_eq_ok_iff.mp write
      obtain ⟨bytes, found⟩ := exists_read_of_text generated named
      obtain ⟨t', followed', -⟩ := FileSystem.exists_target_of_read found
      by_cases here : t'.location = t.location
      · have same : Path.reduced options.file = Path.reduced options.input :=
          (FileSystem.location_eq_iff followed followed' down down' start).mp here.symm
        obtain ⟨relative, dotted⟩ := (Path.alike_eq_false_iff start same).mp apart
        exact .inr ⟨relative, dotted, same, text, generated,
          FileSystem.read_of_write_here followed write followed' found here⟩
      · exact .inl (FileSystem.read_of_write_elsewhere followed write followed' here)

/-- What is written for `a/b.bf` stands beside it, and what is written to `b` leaves `./a` alone. -/
theorem answer_spares_input_beside :
    (Request.ofArguments ["a/b.bf"] = .start { input := "a/b.bf" } ∧
      ∃ ending after,
        Host.serve 0 (answer ["a/b.bf"]) { files := ⟨[], [["a"]], [(["a", "b.bf"], [43])]⟩ } =
          some (ending, after) ∧
        after.files.read "a/b.bf" = .ok [43]) ∧
    Request.ofArguments ["./a", "-o", "b"] = .start { input := "./a", output := some "b" } ∧
      ∃ ending after,
        Host.serve 0 (answer ["./a", "-o", "b"]) { files := ⟨[], [], [(["a"], [43])]⟩ } =
          some (ending, after) ∧
        after.files.read "./a" = .ok [43] := by
  constructor
  · have started : Request.ofArguments ["a/b.bf"] = .start { input := "a/b.bf" } := by decide
    obtain ⟨ending, after, served, -, -, spared⟩ := answer_spares_input started (by decide)
      (by decide) 0 { files := ⟨[], [["a"]], [(["a", "b.bf"], [43])]⟩ }
    refine ⟨started, ending, after, served, ?_⟩
    rcases spared (by decide) (by decide) (by decide) with kept | ⟨-, dotted, -⟩
    · exact kept.trans (by decide)
    · exact absurd dotted (by decide)
  · have started : Request.ofArguments ["./a", "-o", "b"] =
      .start { input := "./a", output := some "b" } := by decide
    obtain ⟨ending, after, served, -, -, spared⟩ := answer_spares_input started (by decide)
      (by decide) 0 { files := ⟨[], [], [(["a"], [43])]⟩ }
    refine ⟨started, ending, after, served, ?_⟩
    rcases spared (by decide) (by decide) (by decide) with kept | ⟨-, -, same, -⟩
    · exact kept.trans (by decide)
    · exact absurd same (by decide)

/-! ### A dot in front -/

theorem newline_mem_enclose (layout : Emission.Layout) (lines : Array String) :
    '\n' ∈ (layout.enclose lines).toList := by
  rw [Emission.Layout.enclose, Emission.Frame.foot, String.toList_append, List.mem_append]
  exact .inr (by decide +kernel)

/-- What is generated has more lines than one. -/
theorem newline_mem_ofText {text : String} (generated : host.text options = .ok text) :
    10 ∈ Source.ofText text := by
  obtain ⟨_, program, layout, -, -, -, generated⟩ := Host.text_eq_ok_iff.mp generated
  obtain ⟨lines, rfl⟩ : ∃ lines, text = layout.enclose lines := by
    rw [Emission.Layout.generate] at generated
    cases statements : layout.statements program with
    | error e =>
        rw [statements] at generated
        cases generated
    | ok lines =>
        rw [statements] at generated
        exact ⟨lines, (Except.ok.inj generated).symm⟩
  rw [Source.ofText_eq, List.mem_flatMap]
  exact ⟨'\n', newline_mem_enclose layout lines, by decide⟩

/-- The comparison takes `./x` for another file than `x`, and the program is gone. -/
theorem answer_overwrites_input_behind_dot :
    Path.reduced "./x" = Path.reduced "x" ∧
      ∃ after, Host.serve 0 (answer ["x", "-o", "./x"]) { files := ⟨[], [], [(["x"], [43])]⟩ } =
          some (.success, after) ∧ after.files.read "x" ≠ .ok [43] := by
  have started : Request.ofArguments ["x", "-o", "./x"] =
    .start { input := "x", output := some "./x" } := by decide
  obtain ⟨text, generated⟩ : ∃ text, Host.text { files := ⟨[], [], [(["x"], [43])]⟩ }
    { input := "x", output := some "./x" } = .ok text := exists_eq_ok_of_isOk (by decide +kernel)
  obtain ⟨result, after, served, compiling⟩ :=
    exists_serve_answer started (by decide) 0 { files := ⟨[], [], [(["x"], [43])]⟩ }
  refine ⟨by decide, ?_⟩
  cases compiling with
  | failed generated' => cases generated.symm.trans generated'
  | refused _ alike => cases alike
  | unwritten _ _ write => cases write
  | written generated' _ write rest =>
      cases generated.symm.trans generated'
      cases write
      have read (content : List UInt8) :
          FileSystem.read ⟨[], [], [(["x"], content)]⟩ "x" = .ok content := rfl
      have changed := newline_mem_ofText generated
      cases rest with
      | unnamed name => cases name
      | built _ mode => cases mode
      | hinted _ _ files =>
          refine ⟨after, served, ?_⟩
          rw [files]
          intro same
          rw [Except.ok.inj ((read _).symm.trans same)] at changed
          exact absurd changed (by decide)

end Brainfuck.CommandLine
