import Brainfuck.Proofs.CommandLine.Serving
import Brainfuck.Proofs.Fallible

/-!
What the stages of a session compute. Each stage is given without its dialogue: the bytes of the
program as a host has them, the program after the selected passes, the sizes, the generated text.
A stage that fails ends all of them, so the order in which they stand decides which failure is seen.
The session's own stages compute just this and leave their host untouched
(`computes_generateText`).
-/

namespace Brainfuck.CommandLine

/-- The bytes of the program, as a host has them: its standard input for `-`, else the file. -/
def Host.source (host : Host) (input : String) : Except Failure (List UInt8) :=
  if input = "-" then .ok host.stdin
  else (host.files.read input).mapError fun e => .library (.stream (.system e))

/-- The size that the user wrote for an option. -/
def writtenSize (option value : String) : Except Failure Nat :=
  (Text.size? value).elim (.error (.invalidSize option value)) .ok

namespace Options

/-- The program that some bytes are, after the selected passes. -/
def program (options : Options) (bytes : List UInt8) : Except Failure (List Instruction) := do
  let passes ← (Pass.select options.selection).mapError .library
  (Pass.runAll passes (Source.parse bytes)).mapError .library

/-- The layout of the sizes that the user wrote. -/
def layout (options : Options) : Except Failure Emission.Layout := do
  let indentWidth ← writtenSize "indent" options.indent
  let tapeSize ← writtenSize "tape-size" options.tapeSize
  (Emission.Layout.ofSizes indentWidth tapeSize).mapError .library

/-- The text that is generated from some bytes. -/
def text (options : Options) (bytes : List UInt8) : Except Failure String := do
  let program ← options.program bytes
  let layout ← options.layout
  (layout.generate program).mapError .library

/-- The file that is to be written. -/
def file (options : Options) : String :=
  outputFile options.input options.output

end Options

/-- The text that is generated from the program that a host has. -/
def Host.text (host : Host) (options : Options) : Except Failure String :=
  host.source options.input >>= options.text

/-- A text is generated if every stage succeeds. -/
theorem Host.text_eq_ok_iff {host : Host} {options : Options} {text : String} :
    host.text options = .ok text ↔ ∃ bytes program layout,
      host.source options.input = .ok bytes ∧ options.program bytes = .ok program ∧
      options.layout = .ok layout ∧ layout.generate program = .ok text := by
  simp only [Host.text, Options.text, bind_eq_ok_iff, mapError_eq_ok_iff]
  constructor
  · rintro ⟨bytes, read, program, shortened, layout, sized, generated⟩
    exact ⟨bytes, program, layout, read, shortened, sized, generated⟩
  · rintro ⟨bytes, program, layout, read, shortened, sized, generated⟩
    exact ⟨bytes, read, program, shortened, layout, sized, generated⟩

namespace Session

variable {fuel verbosity : Nat} {host : Host}

theorem computes_sourceBytes (input : String) :
    (sourceBytes input).Computes verbosity fuel host (host.source input) := by
  unfold sourceBytes Host.source
  split
  · -- The standard input is still unread when the program is asked for.
    obtain ⟨log, said⟩ := exists_yields_say verbosity fuel host .debug .program
      "Reading program from stdin."
    exact ⟨_, said.bind rfl, ⟨rfl, rfl, rfl, rfl, rfl⟩⟩
  · refine (computes_say _ _ _).followed fun after untouched => ?_
    refine (computes_readFile input).followed fun after' _ => ?_
    rw [untouched.files]
    cases host.files.read input with
    | ok bytes => exact computes_orFail (.ok bytes)
    | error e => exact computes_orFail (.error _)

theorem computes_size (option value : String) :
    (size option value).Computes verbosity fuel host (writtenSize option value) := by
  unfold size writtenSize
  cases Text.size? value with
  | none => exact computes_orFail (.error _)
  | some n => exact computes_orFail (.ok n)

theorem computes_shorten (options : Options) (bytes : List UInt8) :
    (shorten options.selection (Source.parse bytes)).Computes verbosity fuel host
      (options.program bytes) := by
  refine (computes_orFail _).bind fun passes middle _ => ?_
  rcases applied : Pass.applyAll passes (Source.parse bytes) with ⟨effects, result⟩
  have ran : Pass.runAll passes (Source.parse bytes) = result := congrArg Prod.snd applied
  rw [ran]
  have said : (effects.forM fun effect => say .debug .optimizer
      s!"Pass {effect.pass}: {effect.before} -> {effect.after} instructions.").Computes verbosity
      fuel middle (.ok ()) := computes_forM fun _ _ => computes_say _ _ _
  exact said.followed fun after _ => computes_orFail _

/-- The session generates the text that the host's program and the options determine, and leaves
the host untouched. -/
theorem computes_generateText (options : Options) :
    (generateText options).Computes verbosity fuel host (host.text options) := by
  refine (computes_sourceBytes _).bind fun bytes _ _ => ?_
  refine (computes_say _ _ _).followed fun _ _ => ?_
  refine (computes_shorten options bytes).bind fun program _ _ => ?_
  rw [Options.layout, bind_assoc]
  refine (computes_size _ _).bind fun indentWidth _ _ => ?_
  rw [bind_assoc]
  refine (computes_size _ _).bind fun tapeSize _ _ => ?_
  refine (computes_orFail _).bind fun layout _ _ => ?_
  refine (computes_say _ _ _).followed fun _ _ => ?_
  rw [Emission.Layout.generate]
  cases layout.statements program with
  | error e => exact computes_orFail (.error _)
  | ok lines => exact (computes_say _ _ _).followed fun _ _ => computes_orFail (.ok _)

end Session

end Brainfuck.CommandLine
