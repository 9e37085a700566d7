import Brainfuck.Proofs.CommandLine.Flags
import Brainfuck.Proofs.CommandLine.Status
import Brainfuck.Proofs.Machine.Healthy

/-!
The two modes side by side. Executing a program and generating text from it repeat the same stages,
but check the sizes and the brackets at different places and in different ways. `Host.verdict` is
what both of them say about a program: executing one that comes to its end has this result
(`result_eq_verdict`), and so has generating, where the indentation width is valid
(`Host.map_text`). So the two modes accept the same programs and refuse the others in the same words
(`modes_agree`).
-/

namespace Brainfuck.CommandLine

variable {fuel verbosity width : Nat} {host after : Host} {options : Options}

/-! ### What both modes check -/

/-- What is said about some bytes before they are run, in the order of the execute mode. -/
def Options.verdict (options : Options) (bytes : List UInt8) : Except Failure Unit := do
  let program ← options.program bytes
  let capacity ← writtenSize "tape-size" options.tapeSize
  let _ ← (Tape.ofCapacity capacity).mapError Failure.library
  (Loops.check program).mapError .library

/-- What is said about the program that a host has. -/
def Host.verdict (host : Host) (options : Options) : Except Failure Unit :=
  host.source options.input >>= options.verdict

/-- A text is generated from bytes about which there is nothing to say, or the same is said. -/
theorem Options.map_text (indent : Text.size? options.indent = some width) (bytes : List UInt8) :
    (fun _ => ()) <$> options.text bytes = options.verdict bytes := by
  have sized : writtenSize "indent" options.indent = .ok width := by
    rw [writtenSize, indent]
    rfl
  rw [Options.text, Options.verdict, Options.layout, sized]
  cases options.program bytes with
  | error failure => rfl
  | ok program =>
      cases writtenSize "tape-size" options.tapeSize with
      | error failure => rfl
      | ok capacity =>
          -- A tape without cells is refused before the brackets are looked at, by either mode.
          by_cases positive : 0 < capacity
          · let layout : Emission.Layout := ⟨width, capacity, positive⟩
            have ofSizes : Emission.Layout.ofSizes width capacity = .ok layout := dif_pos positive
            have ofCapacity : Tape.ofCapacity capacity = .ok (.blank capacity positive) :=
              dif_pos positive
            have checked := Emission.map_statements layout program
            simp only [bind, Except.bind, ofSizes, ofCapacity, Except.mapError, ← checked,
              Emission.Layout.generate]
            cases layout.statements program <;> rfl
          · have ofSizes : Emission.Layout.ofSizes width capacity = .error .emptyTape :=
              dif_neg positive
            have ofCapacity : Tape.ofCapacity capacity = .error .emptyTape := dif_neg positive
            simp only [bind, Except.bind, ofSizes, ofCapacity, Except.mapError]
            rfl

theorem Host.map_text (indent : Text.size? options.indent = some width) (host : Host) :
    (fun _ => ()) <$> host.text options = host.verdict options := by
  rw [Host.text, Host.verdict]
  cases host.source options.input with
  | error failure => rfl
  | ok bytes => exact Options.map_text indent bytes

/-! ### Executing -/

namespace Session

/-- A program that is executed on a host comes to its end there. -/
theorem exists_ends_of_execute {β : Type} {tape : Tape} {program : List Instruction}
    {next : Except Error Unit × Tape → Session β} {result : Except Failure β}
    (whole : (ask (.execute tape program fun ended tape => .done (ended, tape)) >>= next).Yields
      verbosity fuel host result after) :
    ∃ ended machine middle,
      Machine.Ends ⟨tape, some (.ofBytes host.stdin), some {}⟩ program ended machine ∧
      (next (ended, machine.tape)).Yields verbosity fuel middle result after := by
  rw [Yields, serve_bind] at whole
  obtain ⟨⟨asked, middle⟩, served, rest⟩ := Option.bind_eq_some_iff.mp whole
  change Host.serve fuel (.execute tape program fun ended tape => .done (.ok (ended, tape))) host =
    some (asked, middle) at served
  rw [Host.serve] at served
  split at served
  · cases served
  · rename_i ended _ _ _ run
    cases served
    exact ⟨ended, _, _, ⟨fuel, run⟩, rest⟩

/-- A program that comes to its end when it is executed has the verdict on it for its result. -/
theorem result_eq_verdict {result : Except Failure Unit}
    (executed : (execute options).Yields verbosity fuel host result after) :
    result = host.verdict options := by
  refine (computes_sourceBytes _).result_eq executed fun bytes _ executed => ?_
  refine (computes_shorten options bytes).result_eq executed fun program _ executed => ?_
  refine (computes_size _ _).result_eq executed fun capacity _ executed => ?_
  refine (computes_orFail _).result_eq executed fun tape _ executed => ?_
  obtain ⟨host, executed⟩ := (computes_say _ _ _).exists_rest executed
  -- The host's streams never fail, so only the brackets decide how the program ends.
  obtain ⟨ended, machine, middle, ends, executed⟩ := exists_ends_of_execute executed
  have healthy : Machine.Healthy ⟨tape, some (.ofBytes host.stdin), some {}⟩ :=
    { input := by
        rintro _ ⟨⟩
        exact InputStream.neverFails_ofBytes _
      output := Machine.idleOutput_some ⟨nofun, nofun, rfl⟩ }
  rw [← healthy.result_eq_check ends]
  obtain ⟨_, executed⟩ := (computes_forM fun _ _ => computes_say _ _ _).exists_rest executed
  have last := (computes_orFail _).result_eq executed fun _ _ executed =>
    (computes_say _ _ _).unique executed
  exact last.trans (bind_pure _)

end Session

/-! ### Generating -/

/-- What can be wrong with the file that is to be written, or with the name of the executable beside
it. -/
inductive PathFailure (options : Options) (host : Host) (text : String) : Failure → Prop where
  | isInput (alike : Path.alike options.file options.input = true) :
      PathFailure options host text (.overwritesInput options.input)
  | unwritable {e} (write : host.files.write options.file (Source.ofText text) = .error e) :
      PathFailure options host text (.library (.stream (.system e)))
  | unnamed {failure} (name : executableFile options.input options.file = .error failure) :
      PathFailure options host text failure

/-- Without a compiler, only a path can be at fault once the text has been generated. -/
theorem Compiling.pathFailure {text : String} {failure : Failure}
    (compiling : Compiling options host (.error failure) after)
    (generated : host.text options = .ok text) (mode : options.mode = .generate) :
    PathFailure options host text failure := by
  cases compiling with
  | failed generated' => cases generated.symm.trans generated'
  | refused _ alike _ => exact .isInput alike
  | unwritten generated' _ write _ =>
      cases generated.symm.trans generated'
      exact .unwritable write
  | written _ _ _ rest =>
      generalize ended : Except.error failure = result at rest
      cases rest with
      | unnamed name _ =>
          cases ended
          exact .unnamed name
      | hinted => cases ended
      | built _ mode' => cases mode.symm.trans mode'

/-! ### Both modes -/

/-- The last thing said on a host is that something failed. -/
def Host.Reports (host : Host) (failure : Failure) : Prop :=
  host.log.back? = some ⟨.error, .program, failure.message⟩

theorem Host.reports_conclude (host : Host) (failure : Failure) :
    (host.conclude (.error failure)).2.Reports failure :=
  Array.back?_push

/-- A command line that executes a program ends with the verdict on it. -/
theorem exists_conclude_verdict {arguments : List String} {ending : Ending}
    (started : Request.ofArguments arguments = .start options) (mode : options.mode = .execute)
    (served : Host.serve fuel (answer arguments) host = some (ending, after)) :
    ∃ last : Host, last.conclude (host.verdict options) = (ending, after) := by
  rw [serve_answer started] at served
  obtain ⟨⟨result, last⟩, performed, concluded⟩ := Option.map_eq_some_iff.mp served
  rw [Session.perform, mode] at performed
  rw [Session.result_eq_verdict performed] at concluded
  exact ⟨last, concluded⟩

/-- Let a program come to its end when it is executed, and let the indentation width be valid. If
this fails, the command line without the flag fails in the same words and writes nothing. If it
succeeds, the command line without the flag comes through all stages up to the generated text, and
then only a path can make it fail. -/
theorem modes_agree {plain marked : List String} {ending : Ending}
    (adds : AddsExecute plain marked) (started : Request.ofArguments plain = .start options)
    (mode : options.mode = .generate) (indent : Text.size? options.indent = some width)
    (served : Host.serve fuel (answer marked) host = some (ending, after)) (fuel' : Nat) :
    ∃ ending' after', Host.serve fuel' (answer plain) host = some (ending', after') ∧
      (ending.status = 1 → ∃ failure, host.text options = .error failure ∧ after.Reports failure ∧
        ending'.status = 1 ∧ after'.Reports failure ∧ after'.files = host.files) ∧
      (ending.status = 0 → ∃ bytes program layout text,
        host.source options.input = .ok bytes ∧ options.program bytes = .ok program ∧
        options.layout = .ok layout ∧ layout.generate program = .ok text ∧
        (ending'.status = 1 → ∃ failure, PathFailure options host text failure ∧
          after'.Reports failure)) := by
  have started' : Request.ofArguments marked = .start { options with mode := .execute } := by
    rw [adds.ofArguments_eq, started, Request.executing, if_pos mode]
  obtain ⟨last, concluded⟩ := exists_conclude_verdict started' rfl served
  have same : (fun _ => ()) <$> host.text options =
      host.verdict { options with mode := .execute } := Host.map_text indent host
  rw [← same] at concluded
  obtain ⟨result, last', served', compiling⟩ :=
    exists_serve_answer started (by rw [mode]; decide) fuel' host
  refine ⟨_, _, served', ?_⟩
  cases generated : host.text options with
  | error failure =>
      rw [generated] at concluded
      cases concluded
      obtain ⟨rfl, untouched⟩ := compiling.of_error generated
      refine ⟨fun _ => ⟨failure, rfl, last.reports_conclude failure, rfl,
        last'.reports_conclude failure, untouched.files⟩, nofun⟩
  | ok text =>
      rw [generated] at concluded
      cases concluded
      obtain ⟨bytes, program, layout, read, shortened, sized, written⟩ :=
        Host.text_eq_ok_iff.mp generated
      refine ⟨nofun, fun _ => ⟨bytes, program, layout, text, read, shortened, sized, written, ?_⟩⟩
      intro status
      cases result with
      | ok done => cases status
      | error failure =>
          exact ⟨failure, compiling.pathFailure generated mode, last'.reports_conclude failure⟩

/-- Both modes refuse a loop without an end, and both accept a program without loops. -/
theorem modes_agree_two_programs :
    AddsExecute ["--tape-size", "1", "p"] ["--tape-size", "1", "p", "-e"] ∧
    Request.ofArguments ["--tape-size", "1", "p"] = .start { input := "p", tapeSize := "1" } ∧
    (∃ ending after, Host.serve 0 (answer ["--tape-size", "1", "p"])
        { files := ⟨[], [], [(["p"], [91])]⟩ } = some (ending, after) ∧ ending.status = 1 ∧
      after.Reports (.library (.unbalancedLoop ⟨0, 0⟩)) ∧
      after.files = ⟨[], [], [(["p"], [91])]⟩) ∧
    ∃ ending after, Host.serve 0 (answer ["--tape-size", "1", "p"])
        { files := ⟨[], [], [(["p"], [43])]⟩ } = some (ending, after) ∧
      ∃ text, Host.text { files := ⟨[], [], [(["p"], [43])]⟩ } { input := "p", tapeSize := "1" } =
          .ok text ∧
        (ending.status = 1 → ∃ failure, PathFailure { input := "p", tapeSize := "1" }
          { files := ⟨[], [], [(["p"], [43])]⟩ } text failure ∧ after.Reports failure) := by
  have adds : AddsExecute ["--tape-size", "1", "p"] ["--tape-size", "1", "p", "-e"] :=
    .cons_value (by decide) rfl (by decide)
      (.cons (by decide) (by decide) (addsExecute_cons (by decide) []))
  have started : Request.ofArguments ["--tape-size", "1", "p"] =
    .start { input := "p", tapeSize := "1" } := by decide
  have indent : Text.size? "4" = some 4 := by decide
  refine ⟨adds, started, ?_, ?_⟩
  · have served : Host.serve 0 (answer ["--tape-size", "1", "p", "-e"])
        { files := ⟨[], [], [(["p"], [91])]⟩ } = some (.failure,
          { files := ⟨[], [], [(["p"], [91])]⟩
            log := #[⟨.error, .program,
              (Failure.library (.unbalancedLoop ⟨0, 0⟩)).message⟩] }) := by decide +kernel
    obtain ⟨ending, after, served', refused, -⟩ := modes_agree adds started rfl indent served 0
    obtain ⟨failure, generated, -, status, reports, files⟩ := refused rfl
    have generated' : Host.text { files := ⟨[], [], [(["p"], [91])]⟩ }
      { input := "p", tapeSize := "1" } = .error (.library (.unbalancedLoop ⟨0, 0⟩)) := by
      decide +kernel
    cases generated.symm.trans generated'
    exact ⟨ending, after, served', status, reports, files⟩
  · have served : Host.serve 3 (answer ["--tape-size", "1", "p", "-e"])
        { files := ⟨[], [], [(["p"], [43])]⟩ } =
          some (.success, { files := ⟨[], [], [(["p"], [43])]⟩ }) := by decide +kernel
    obtain ⟨ending, after, served', -, accepted⟩ := modes_agree adds started rfl indent served 0
    obtain ⟨bytes, program, layout, text, read, shortened, sized, written, paths⟩ := accepted rfl
    exact ⟨ending, after, served', text,
      Host.text_eq_ok_iff.mpr ⟨bytes, program, layout, read, shortened, sized, written⟩, paths⟩

end Brainfuck.CommandLine
