import Brainfuck.Proofs.CommandLine.Sparing
import Brainfuck.Proofs.Path.FileName

/-!
What the exit status says about the file. Without a compiler, a run can fail in one way after it has
saved its file: no name is free for an executable. Beside a file with another extension than `out`
one always is (`exists_executableFile`), so also beside a file that is named after its input
(`exists_executableFile_of_outputFile`). A failure leaves a file behind only where the user has
named it (`answer_status_tells_saved`), and there it can (`answer_saves_and_fails`).
-/

namespace Brainfuck.CommandLine

variable {input file : String} {stem extension : List Char}

/-! ### Free names -/

theorem exists_executableFile_of_ne
    (bare : Path.last? (Path.withExtension file "") ≠ Path.last? file)
    (marked : Path.last? (Path.withExtension file "out") ≠ Path.last? file)
    (either : Path.last? (Path.withExtension file "") ≠ Path.last? input ∨
      Path.last? (Path.withExtension file "out") ≠ Path.last? input) :
    ∃ executable, executableFile input file = .ok executable := by
  have bareFile := Path.alike_of_last?_ne bare
  have markedFile := Path.alike_of_last?_ne marked
  simp only [executableFile, bareFile, markedFile]
  rcases either with other | other
  · rw [Path.alike_of_last?_ne other]
    exact ⟨_, rfl⟩
  · rw [Path.alike_of_last?_ne other]
    cases Path.alike (Path.withExtension file "") input with
    | false => exact ⟨_, rfl⟩
    | true => exact ⟨_, rfl⟩

/-- Beside a file with another extension than `out` there is always a free name. -/
theorem exists_executableFile {s : Path.Split} (split : Path.split? file = some s)
    (cut : Path.stemAndExtension s.name = (stem, some extension)) (regular : stem ≠ ['.'])
    (other : extension ≠ ['o', 'u', 't']) (input : String) :
    ∃ executable, executableFile input file = .ok executable := by
  have atFile := Path.last?_of_split? split
  rw [(Path.stemAndExtension_eq_some_iff.mp cut).1] at atFile
  have atBare : Path.last? (Path.withExtension file "") = some (stem ++ []) :=
    Path.last?_withExtension split cut regular List.not_mem_nil
  have atMarked : Path.last? (Path.withExtension file "out") =
      some (stem ++ ['.', 'o', 'u', 't']) :=
    Path.last?_withExtension split cut regular (by decide)
  refine exists_executableFile_of_ne ?_ ?_ ?_
  · simp [atBare, atFile]
  · simpa [atMarked, atFile] using Ne.symm other
  · rw [atBare, atMarked]
    by_cases here : some (stem ++ []) = Path.last? input
    · exact .inr (by simp [← here])
    · exact .inl here

/-- Beside a file such as `..cpp`, an executable gets the name of the parent directory, which no
input with a file name has. -/
theorem exists_executableFile_dot {s s' : Path.Split} (split : Path.split? file = some s)
    (cut : Path.stemAndExtension s.name = (['.'], some extension)) (ends : s.idleEnd = [])
    (split' : Path.split? input = some s') :
    ∃ executable, executableFile input file = .ok executable := by
  obtain ⟨isFront, fileName, -⟩ := Path.split?_eq_some split
  have atFile := Path.last?_of_split? split
  have atInput := Path.last?_of_split? split'
  have noParent := (Path.split?_eq_some split').2.1.noParent
  have parent (new : String) : Path.last? (Path.withExtension file new) = some ['.', '.'] := by
    rw [Path.withExtension_eq_parent split cut ends]
    exact Path.last?_append isFront (by decide) (by decide) (by decide)
  refine exists_executableFile_of_ne ?_ ?_ (.inl ?_)
  · simpa [parent, atFile] using Ne.symm fileName.noParent
  · simpa [parent, atFile] using Ne.symm fileName.noParent
  · simpa [parent, atInput] using Ne.symm noParent

/-- Beside a file that is named after its input there is always a free name, unless the file's name
spells a directory. -/
theorem exists_executableFile_of_outputFile
    (apart : Path.alike (outputFile input none) input = false)
    (noDirectory : FileSystem.spellsDirectory (outputFile input none) = false) :
    ∃ executable, executableFile input (outputFile input none) = .ok executable := by
  by_cases unnamed : input = "-"
  · rw [outputFile, if_pos unnamed]
    have split : Path.split? unnamedOutput = some ⟨[], unnamedOutput.toList, []⟩ := by decide
    have cut : Path.stemAndExtension unnamedOutput.toList =
      ("brainfuck_output".toList, some "cpp".toList) := by decide
    exact exists_executableFile split cut (by decide) (by decide) input
  · simp only [outputFile, if_neg unnamed] at apart noDirectory ⊢
    cases split : Path.split? input with
    | none =>
        rw [Path.withExtension, split] at apart
        simp [Path.alike] at apart
    | some s =>
        obtain ⟨isFront, fileName, -⟩ := Path.split?_eq_some split
        rcases cut : Path.stemAndExtension s.name with ⟨stem, old⟩
        by_cases regular : stem ≠ ['.'] ∨ s.idleEnd ≠ []
        · have split' : Path.split? (Path.withExtension input "cpp") =
              some ⟨s.before, stem ++ Path.suffix "cpp", []⟩ :=
            Path.split?_withExtension split cut regular (by decide) (by decide)
          have cut' : Path.stemAndExtension (stem ++ Path.suffix "cpp") =
              (stem, some ['c', 'p', 'p']) :=
            Path.stemAndExtension_eq_some_iff.mpr
              ⟨rfl, (Path.stem_of_isFileName fileName cut).2, by decide⟩
          by_cases dot : stem = ['.']
          · rw [dot] at cut' split'
            exact exists_executableFile_dot split' cut' rfl split
          · exact exists_executableFile split' cut' dot (by decide) input
        · -- The input is named like `..a`, so the file would be the parent directory.
          rw [not_or, not_not, not_not] at regular
          obtain ⟨rfl, ends⟩ := regular
          cases old with
          | none => exact absurd (Path.eq_of_stemAndExtension_none cut).symm fileName.noDot
          | some extension =>
              rw [Path.withExtension_eq_parent split cut ends] at noDirectory
              rw [FileSystem.spellsDirectory_of_getLast?_reduced
                (Path.last?_append isFront (by decide) (by decide) (by decide))] at noDirectory
              cases noDirectory

theorem eq_noExecutableName {failure : Failure}
    (unnamed : executableFile input file = .error failure) :
    failure = .noExecutableName input file := by
  rw [executableFile] at unnamed
  simp only at unnamed
  split at unnamed
  · cases unnamed
  · split at unnamed
    · cases unnamed
    · cases unnamed
      rfl

/-! ### What the status says -/

section Status

variable {options : Options} {host after : Host} {result : Except Failure Unit}

/-- Without a compiler, a session saves its file and succeeds, or it fails with the files as they
were, or it saves its file and fails for want of a name. -/
theorem Compiling.cases_of_generate (compiling : Compiling options host result after)
    (mode : options.mode = .generate) :
    (result = .ok () ∧ host.HasSaved options after ∧
      ∃ executable, executableFile options.input options.file = .ok executable) ∨
    (∃ failure, result = .error failure ∧ ¬ host.HasSaved options after ∧
      after.files = host.files) ∨
    (result = .error (.noExecutableName options.input options.file) ∧
      host.HasSaved options after ∧ executableFile options.input options.file =
        .error (.noExecutableName options.input options.file)) := by
  cases compiling with
  | failed generated untouched =>
      refine .inr (.inl ⟨_, rfl, ?_, untouched.files⟩)
      rintro ⟨_, generated', -, -⟩
      cases generated.symm.trans generated'
  | refused _ alike untouched =>
      refine .inr (.inl ⟨_, rfl, ?_, untouched.files⟩)
      rintro ⟨_, -, apart, -⟩
      cases alike.symm.trans apart
  | unwritten generated _ write untouched =>
      refine .inr (.inl ⟨_, rfl, ?_, untouched.files⟩)
      rintro ⟨_, generated', -, write'⟩
      cases generated.symm.trans generated'
      cases write.symm.trans write'
  | written generated apart write rest =>
      have saved : host.HasSaved options after := ⟨_, generated, apart, rest.files_eq ▸ write⟩
      cases rest with
      | unnamed name _ =>
          cases eq_noExecutableName name
          exact .inr (.inr ⟨rfl, saved, name⟩)
      | hinted name _ _ _ => exact .inl ⟨rfl, saved, _, name⟩
      | built _ mode' _ _ => cases mode.symm.trans mode'

/-- A file that is named after its input is saved only where a name is free for an executable. -/
theorem Host.HasSaved.exists_executableFile (saved : host.HasSaved options after)
    (unnamed : options.output = none) :
    ∃ executable, executableFile options.input options.file = .ok executable := by
  obtain ⟨text, -, apart, write⟩ := saved
  obtain ⟨t, followed, writable, -⟩ := FileSystem.write_eq_ok_iff.mp write
  obtain ⟨-, -, directory, -, rfl⟩ := FileSystem.target_eq_ok_iff.mp followed
  rw [Options.file, unnamed] at apart writable ⊢
  exact exists_executableFile_of_outputFile apart writable.spelling

/-- Without a compiler, the status is 0 exactly if the file has been saved and a name is free for an
executable. With status 1 the files are as they were, unless only the name is missing. Where the
user names no output, a name is always free: the status is 0 exactly if the file has been saved. -/
theorem answer_status_tells_saved {arguments : List String}
    (started : Request.ofArguments arguments = .start options) (mode : options.mode = .generate)
    (fuel : Nat) (host : Host) :
    ∃ ending after, Host.serve fuel (answer arguments) host = some (ending, after) ∧
      (ending.status = 0 ↔ host.HasSaved options after ∧
        ∃ executable, executableFile options.input options.file = .ok executable) ∧
      (ending.status = 1 → after.files = host.files ∨ host.HasSaved options after ∧
        executableFile options.input options.file =
          .error (.noExecutableName options.input options.file)) ∧
      (options.output = none → (ending.status = 0 ↔ host.HasSaved options after) ∧
        (ending.status = 1 → after.files = host.files)) := by
  obtain ⟨result, after, served, compiling⟩ :=
    exists_serve_answer started (by rw [mode]; decide) fuel host
  refine ⟨(after.conclude result).1, (after.conclude result).2, served, ?_⟩
  rcases compiling.cases_of_generate mode with
    ⟨rfl, saved, named⟩ | ⟨failure, rfl, unsaved, files⟩ | ⟨rfl, saved, unnamed⟩
  · exact ⟨iff_of_true rfl ⟨saved, named⟩, nofun, fun _ => ⟨iff_of_true rfl saved, nofun⟩⟩
  · exact ⟨iff_of_false nofun fun both => unsaved both.1, fun _ => .inl files,
      fun _ => ⟨iff_of_false nofun unsaved, fun _ => files⟩⟩
  · refine ⟨iff_of_false nofun ?_, fun _ => .inr ⟨saved, unnamed⟩, fun plain => ?_⟩
    · rintro ⟨-, executable, named⟩
      cases unnamed.symm.trans named
    · obtain ⟨executable, named⟩ := saved.exists_executableFile plain
      cases unnamed.symm.trans named

/-- The file that is written for `x` is named `x.cpp`, and the status tells whether it was. -/
theorem answer_status_tells_saved_plain :
    Request.ofArguments ["x"] = .start { input := "x" } ∧
      ∃ ending after, Host.serve 0 (answer ["x"]) { files := ⟨[], [], [(["x"], [43])]⟩ } =
          some (ending, after) ∧
        (ending.status = 0 ↔
          Host.HasSaved { files := ⟨[], [], [(["x"], [43])]⟩ } { input := "x" } after) := by
  have started : Request.ofArguments ["x"] = .start { input := "x" } := by decide
  obtain ⟨ending, after, served, -, -, plain⟩ :=
    answer_status_tells_saved started rfl 0 { files := ⟨[], [], [(["x"], [43])]⟩ }
  exact ⟨started, ending, after, served, (plain rfl).1⟩

/-- Beside `x` and `x.out` there is no free name, which is noticed when `x.out` has been written. -/
theorem answer_saves_and_fails :
    ∃ after, Host.serve 0 (answer ["x", "-o", "x.out"]) { files := ⟨[], [], [(["x"], [43])]⟩ } =
        some (.failure, after) ∧
      Host.HasSaved { files := ⟨[], [], [(["x"], [43])]⟩ } { input := "x", output := some "x.out" }
        after ∧
      ∃ content, after.files.read "x.out" = .ok content := by
  have started : Request.ofArguments ["x", "-o", "x.out"] =
    .start { input := "x", output := some "x.out" } := by decide
  obtain ⟨text, generated⟩ : ∃ text, Host.text { files := ⟨[], [], [(["x"], [43])]⟩ }
    { input := "x", output := some "x.out" } = .ok text := exists_eq_ok_of_isOk (by decide +kernel)
  obtain ⟨result, after, served, compiling⟩ :=
    exists_serve_answer started (by decide) 0 { files := ⟨[], [], [(["x"], [43])]⟩ }
  have unnamed : executableFile "x" "x.out" = .error (.noExecutableName "x" "x.out") := by decide
  cases compiling with
  | failed generated' => cases generated.symm.trans generated'
  | refused _ alike => cases alike
  | unwritten _ _ write => cases write
  | @written _ files _ _ generated' apart write rest =>
      cases rest with
      | @unnamed failure _ _ untouched =>
          have same : after.files = files := untouched.files
          subst same
          exact ⟨(after.conclude (.error failure)).2, served, ⟨_, generated', apart, write⟩,
            _, FileSystem.read_of_write write⟩
      | hinted name => cases unnamed.symm.trans name
      | built _ mode => cases mode

end Status

end Brainfuck.CommandLine
