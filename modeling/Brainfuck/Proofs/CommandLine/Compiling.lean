import Brainfuck.Proofs.CommandLine.Stages

/-!
The course of a session that generates a file. `Compiling` lists the ways in which it can end, with
what stands behind each of them: the text is not generated, the file would be the input, the file
cannot be written, or it is written; and then no name is free for an executable, or a hint is
printed, or a compiler is started (`Finishing`). Every such session ends in one of these ways
(`exists_compiling`).
-/

namespace Brainfuck.CommandLine

/-- What comes of starting a compiler. -/
def Host.compiled (host : Host) (compiler : String) : Except Failure Unit :=
  match host.exitStatus compiler with
  | .error e => .error (.cannotLaunch compiler (.system e))
  | .ok 0 => .ok ()
  | .ok status => .error (.compilerFailed compiler status)

/-- How a session ends that has written its file to the host. -/
inductive Finishing (options : Options) (host : Host) : Except Failure Unit → Host → Prop where
  | unnamed {failure after} (name : executableFile options.input options.file = .error failure)
      (untouched : host.Untouched after) : Finishing options host (.error failure) after
  | hinted {executable after} (name : executableFile options.input options.file = .ok executable)
      (mode : options.mode ≠ .build) (files : after.files = host.files)
      (launched : after.launched = host.launched) : Finishing options host (.ok ()) after
  | built {executable after}
      (name : executableFile options.input options.file = .ok executable)
      (mode : options.mode = .build) (files : after.files = host.files)
      (launched : after.launched =
        (options.compiler, ["-O2", host.temporary, "-o", executable]) :: host.launched) :
      Finishing options host (host.compiled options.compiler) after

/-- How a session ends that generates a file. -/
inductive Compiling (options : Options) (host : Host) : Except Failure Unit → Host → Prop where
  | failed {failure after} (generated : host.text options = .error failure)
      (untouched : host.Untouched after) : Compiling options host (.error failure) after
  | refused {text after} (generated : host.text options = .ok text)
      (alike : Path.alike options.file options.input = true) (untouched : host.Untouched after) :
      Compiling options host (.error (.overwritesInput options.input)) after
  | unwritten {text e after} (generated : host.text options = .ok text)
      (apart : Path.alike options.file options.input = false)
      (write : host.files.write options.file (Source.ofText text) = .error e)
      (untouched : host.Untouched after) :
      Compiling options host (.error (.library (.stream (.system e)))) after
  | written {text files result after} (generated : host.text options = .ok text)
      (apart : Path.alike options.file options.input = false)
      (write : host.files.write options.file (Source.ofText text) = .ok files)
      (rest : Finishing options { host with files } result after) :
      Compiling options host result after

/-- What a host does about a compiler does not depend on what has left it untouched. -/
theorem Host.Untouched.compiled {before after : Host} (untouched : before.Untouched after)
    (compiler : String) : after.compiled compiler = before.compiled compiler := by
  simp only [Host.compiled, Host.exitStatus, untouched.files, untouched.commands]

theorem Finishing.of_untouched {options : Options} {before host after : Host}
    {result : Except Failure Unit} (untouched : before.Untouched host)
    (rest : Finishing options host result after) : Finishing options before result after := by
  cases rest with
  | unnamed name untouched' => exact .unnamed name (untouched.trans untouched')
  | hinted name mode files launched =>
      exact .hinted name mode (files.trans untouched.files) (launched.trans untouched.launched)
  | built name mode files launched =>
      rw [untouched.compiled]
      rw [untouched.temporary, untouched.launched] at launched
      exact .built name mode (files.trans untouched.files) launched

namespace Session

variable (verbosity fuel : Nat) (options : Options) (host : Host)

theorem exists_yields_build (compiler executable text : String) :
    ∃ log, (build compiler executable text).Yields verbosity fuel host (host.compiled compiler)
      { host with
        log
        launched := (compiler, ["-O2", host.temporary, "-o", executable]) :: host.launched } := by
  obtain ⟨log, said⟩ := exists_yields_say verbosity fuel host .debug .generator
    s!"Invoking {compiler} on {host.temporary}."
  have scratched : (ask (.scratch text .done)).Yields verbosity fuel host
      (.ok (.ok host.temporary)) host := rfl
  have launched : (ask (.launch compiler ["-O2", host.temporary, "-o", executable] .done)).Yields
      verbosity fuel { host with log } (.ok ((host.exitStatus compiler).mapError .system))
      { host with
        log
        launched := (compiler, ["-O2", host.temporary, "-o", executable]) :: host.launched } := rfl
  refine ⟨log, scratched.bind <| (yields_orFail (.ok _)).bind <| said.bind <| launched.bind ?_⟩
  rw [Host.compiled]
  cases host.exitStatus compiler with
  | error e => rfl
  | ok status => cases status <;> rfl

theorem exists_finishing (text : String) :
    ∃ result after, (finish options options.file text).Yields verbosity fuel host result after ∧
      Finishing options host result after := by
  have named : (orFail (executableFile options.input options.file)).Yields verbosity fuel host _
      host := yields_orFail _
  rw [finish]
  cases name : executableFile options.input options.file with
  | error failure =>
      rw [name] at named
      exact ⟨_, _, named.bind_error _, .unnamed name (.refl host)⟩
  | ok executable =>
      rw [name] at named
      by_cases mode : options.mode = .build
      · simp only [if_pos mode]
        obtain ⟨log, built⟩ :=
          exists_yields_build verbosity fuel host options.compiler executable text
        cases compiled : host.compiled options.compiler with
        | error failure =>
            rw [compiled] at built
            exact ⟨_, _, named.bind (built.bind_error _), compiled ▸ .built name mode rfl rfl⟩
        | ok success =>
            rw [compiled] at built
            exact ⟨_, _, named.bind (built.bind (yields_printLine _)),
              compiled ▸ .built name mode rfl rfl⟩
      · simp only [if_neg mode]
        exact ⟨_, _, named.bind ((yields_printLine _).bind (yields_printLine _)),
          .hinted name mode rfl rfl⟩

/-- A session that generates a file ends on every host, in one of the ways there are. -/
theorem exists_compiling :
    ∃ result after, (generate options).Yields verbosity fuel host result after ∧
      Compiling options host result after := by
  obtain ⟨middle, generatedText, untouched⟩ :
    (generateText options).Computes verbosity fuel host _ := computes_generateText options
  have output : outputFile options.input options.output = options.file := rfl
  rw [generate]
  cases generated : host.text options with
  | error failure =>
      rw [generated] at generatedText
      exact ⟨_, _, generatedText.bind_error _, .failed generated untouched⟩
  | ok text =>
      rw [generated] at generatedText
      cases alike : Path.alike options.file options.input with
      | true =>
          refine ⟨_, middle, generatedText.bind ?_, .refused generated alike untouched⟩
          simp only [output, alike, if_true]
          rfl
      | false =>
          cases write : host.files.write options.file (Source.ofText text) with
          | error e =>
              obtain ⟨after, refused, untouched'⟩ :
                (ask (.writeFile options.file text .done)).Computes verbosity fuel middle _ :=
                computes_writeFile (untouched.files ▸ write)
              refine ⟨_, after, generatedText.bind ?_,
                .unwritten generated alike write (untouched.trans untouched')⟩
              simp only [output, alike, Bool.false_eq_true, if_false]
              exact refused.bind ((yields_orFail (.error _)).bind_error _)
          | ok files =>
              have wrote : (ask (.writeFile options.file text .done)).Yields verbosity fuel middle
                  _ { middle with files } := yields_writeFile (untouched.files ▸ write)
              obtain ⟨log, said⟩ := exists_yields_say verbosity fuel { middle with files } .info
                .program s!"Wrote {options.file}."
              obtain ⟨result, after, finished, rest⟩ :=
                exists_finishing verbosity fuel options { middle with files, log } text
              have kept : { host with files }.Untouched { middle with files, log } :=
                ⟨rfl, untouched.commands, untouched.temporary, untouched.stdout, untouched.launched⟩
              refine ⟨result, after, generatedText.bind ?_,
                .written generated alike write (rest.of_untouched kept)⟩
              simp only [output, alike, Bool.false_eq_true, if_false]
              exact wrote.bind ((yields_orFail (.ok ())).bind (said.bind finished))

end Session

/-- The command line always ends when it is to generate a file, in one of the ways in which the
session can end. -/
theorem exists_serve_answer {arguments : List String} {options : Options}
    (started : Request.ofArguments arguments = .start options) (mode : options.mode ≠ .execute)
    (fuel : Nat) (host : Host) :
    ∃ result after, Host.serve fuel (answer arguments) host = some (after.conclude result) ∧
      Compiling options host result after := by
  obtain ⟨result, after, yields, compiling⟩ :=
    Session.exists_compiling options.verbosity fuel options host
  have performed : Session.perform options = Session.generate options := by
    rw [Session.perform]
    split
    · contradiction
    · rfl
    · rfl
  refine ⟨result, after, ?_, compiling⟩
  rw [Session.Yields] at yields
  rw [serve_answer started, performed, yields]
  rfl

end Brainfuck.CommandLine
