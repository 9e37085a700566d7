import Brainfuck.CommandLine.Arguments
import Brainfuck.CommandLine.Dialogue
import Brainfuck.Emission.Layout
import Brainfuck.Pass
import Brainfuck.Path
import Brainfuck.Source
import Brainfuck.Text.Decimal

/-!
What the command line does. `generate` turns a source file into a C++ file and may have it compiled;
`execute` runs the source at once. Both read, shorten and check the program in stages, and the first
stage that fails ends the session. Nothing is written unless the whole text has been generated.
-/

namespace Brainfuck.CommandLine

/-- Why a session fails. -/
inductive Failure where
  | library (e : Error)
  | invalidSize (option value : String)
  | overwritesInput (input : String)
  | noExecutableName (input output : String)
  | cannotLaunch (compiler : String) (why : StreamFailure)
  | compilerFailed (compiler : String) (status : Nat)
deriving DecidableEq, Repr

/-- The wording of a failure. -/
def Failure.message : Failure → String
  | .library e => e.message
  | .invalidSize option value => s!"Invalid value for --{option}: {value}"
  | .overwritesInput input => "Refusing to overwrite the input file " ++ input
  | .noExecutableName input output =>
      s!"Cannot pick an executable name that does not overwrite {input} or {output}"
  | .cannotLaunch compiler why => s!"Cannot execute {compiler}: {why.message}"
  | .compilerFailed compiler status =>
      s!"{compiler} exited with status: exit status: {status}"

/-! ### Names of files -/

/-- The file that is written when the program comes from the standard input. -/
def unnamedOutput : String :=
  "brainfuck_output.cpp"

/-- The file to write: the one asked for, or the input's with the extension of C++. -/
def outputFile (input : String) (output : Option String) : String :=
  match output with
  | some path => path
  | none => if input = "-" then unnamedOutput else Path.withExtension input "cpp"

/-- The executable beside a generated file: its name without extension or, where that spells the
input or the file itself, with the extension `out`. -/
def executableFile (input output : String) : Except Failure String :=
  let isFree := fun path => !Path.alike path input && !Path.alike path output
  let bare := Path.withExtension output ""
  let marked := Path.withExtension output "out"
  if isFree bare then .ok bare
  else if isFree marked then .ok marked
  else .error (.noExecutableName input output)

/-! ### Stages -/

/-- A dialogue that knows how much is to be logged and that may fail. -/
abbrev Session :=
  ReaderT Nat (ExceptT Failure Dialogue)

namespace Session

/-- Makes a request to the host. -/
def ask (request : Dialogue α) : Session α :=
  fun _ => ExceptT.lift request

/-- Goes on with a result, or fails with it. -/
def orFail : Except Failure α → Session α
  | .ok value => pure value
  | .error failure => throw failure

/-- Goes on with a result of the library, or fails with it. -/
def ofResult (result : Except Error α) : Session α :=
  orFail (result.mapError .library)

/-- Goes on with what a stream delivered, or fails with it. -/
def ofStream (result : Except StreamFailure α) : Session α :=
  ofResult (result.mapError .stream)

/-- Logs a message, if its level is shown. -/
def say (level : Level) (topic : Topic) (message : String) : Session Unit := do
  if level.isShown (← read) then
    ask (.log ⟨level, topic, message⟩ (.done ()))

/-- Prints a line. -/
def printLine (line : String) : Session Unit :=
  ask (.print (line ++ "\n") (.done ()))

/-- The bytes of the program: the standard input's for `-`, else the file's. -/
def sourceBytes (input : String) : Session (List UInt8) := do
  if input = "-" then
    say .debug .program "Reading program from stdin."
    ask (.readStdin .done)
  else
    say .debug .program s!"Opening {input}."
    ofStream (← ask (.readFile input .done))

/-- The program after the selected passes. -/
def shorten (selection : String) (program : List Instruction) : Session (List Instruction) := do
  let passes ← ofResult (Pass.select selection)
  let (effects, result) := Pass.applyAll passes program
  effects.forM fun effect =>
    say .debug .optimizer
      s!"Pass {effect.pass}: {effect.before} -> {effect.after} instructions."
  ofResult result

/-- A size that the user wrote. -/
def size (option value : String) : Session Nat :=
  match Text.size? value with
  | some n => pure n
  | none => throw (.invalidSize option value)

/-! ### Modes -/

/-- Runs the program on the host's streams. -/
def execute (options : Options) : Session Unit := do
  let source ← sourceBytes options.input
  let program ← shorten options.selection (Source.parse source)
  let capacity ← size "tape-size" options.tapeSize
  let tape ← ofResult (Tape.ofCapacity capacity)
  say .debug .program "Running program."
  let (result, tape) ← ask (.execute tape program fun result tape => .done (result, tape))
  (tape.growthFrom capacity).forM fun growth =>
    let side := match growth.side with
      | .left => "left"
      | .right => "right"
    say .trace .tape
      s!"Growing tape {side}: {growth.capacity} -> {growth.capacity * 2} cells."
  ofResult result
  say .debug .program "Done."

/-- Has the generated text compiled. -/
def build (compiler executable text : String) : Session Unit := do
  let temporary ← ofStream (← ask (.scratch text .done))
  say .debug .generator s!"Invoking {compiler} on {temporary}."
  match ← ask (.launch compiler ["-O2", temporary, "-o", executable] .done) with
  | .error why => throw (.cannotLaunch compiler why)
  | .ok 0 => pure ()
  | .ok status => throw (.compilerFailed compiler status)

/-- The text of the C++ program that the options ask for. -/
def generateText (options : Options) : Session String := do
  let source ← sourceBytes options.input
  say .debug .program "Parsing source."
  let program ← shorten options.selection (Source.parse source)
  let indentWidth ← size "indent" options.indent
  let tapeSize ← size "tape-size" options.tapeSize
  let layout ← ofResult (Emission.Layout.ofSizes indentWidth tapeSize)
  say .debug .program "Generating C++ code."
  let lines ← ofResult (layout.statements program)
  say .debug .generator s!"Generated {lines.size} statements."
  return layout.enclose lines

/-- Names the executable beside a file that has been written, has it compiled if that is asked for,
and says what to do next. -/
def finish (options : Options) (output text : String) : Session Unit := do
  let executable ← orFail (executableFile options.input output)
  if options.mode = .build then
    build options.compiler executable text
    printLine s!"Successfully compiled Brainfuck to executable: {executable}"
  else
    printLine s!"Successfully compiled Brainfuck to C++: {output}"
    printLine s!"Compile with: c++ -O2 {output} -o {executable}"

/-- Generates the C++ file, unless it would be the input, and goes on from there. -/
def generate (options : Options) : Session Unit := do
  let text ← generateText options
  let output := outputFile options.input options.output
  if Path.alike output options.input then
    throw (.overwritesInput options.input)
  ofStream (← ask (.writeFile output text .done))
  say .info .program s!"Wrote {output}."
  finish options output text

/-- Does what the options ask for. -/
def perform (options : Options) : Session Unit :=
  match options.mode with
  | .execute => execute options
  | .generate | .build => generate options

end Session

/-! ### The whole command line -/

/-- How a session ends. -/
inductive Ending where
  | success
  | failure
  | misuse
deriving DecidableEq, Repr

/-- The exit status of an ending. -/
def Ending.status : Ending → Nat
  | .success => 0
  | .failure | .misuse => 1

/-- The line that names the program and its version. -/
def versionLine : String :=
  "bf2cpp 0.1.0\n"

/-- Answers some arguments. A failure is the last record of the log. -/
def answer (arguments : List String) : Dialogue Ending :=
  match Request.ofArguments arguments with
  | .version => .print versionLine (.done .success)
  | .misuse => .done .misuse
  | .start options => do
      match ← (Session.perform options options.verbosity).run with
      | .ok () => return .success
      | .error failure => .log ⟨.error, .program, failure.message⟩ (.done .failure)

end Brainfuck.CommandLine
