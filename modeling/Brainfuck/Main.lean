import Brainfuck.CommandLine.Session

/-!
The command line on a terminal. This host answers requests with the files and streams of the system
it runs on. It starts no compiler.
-/

namespace Brainfuck.CommandLine.Terminal

/-- The cause of a refused read or write. The system's number can come with either sign. -/
def failureOf (e : IO.Error) : StreamFailure :=
  match e with
  | .noFileOrDirectory .. => .system .notFound
  | .permissionDenied .. => .system .permissionDenied
  | .inappropriateType _ code _ =>
      if code = 20 || code = -20 then .system .notADirectory else .system .isADirectory
  | e => .other (toString e)

/-- Does something that the system may refuse. -/
def attempt (action : IO α) : IO (Except StreamFailure α) := do
  try
    return .ok (← action)
  catch e =>
    return .error (failureOf e)

/-- All bytes that a stream still has. -/
partial def readAll (stream : IO.FS.Stream) (bytes : ByteArray) : IO ByteArray := do
  let more ← stream.read 65536
  if more.isEmpty then return bytes else readAll stream (bytes ++ more)

/-- Prints what a machine has written, and empties its output. -/
def print (machine : Machine) : IO Machine := do
  match machine.output with
  | none => return machine
  | some output =>
      let stdout ← IO.getStdout
      stdout.write ⟨output.written⟩
      stdout.flush
      return { machine with output := some { output with written := #[] } }

/-- Runs a program to its end. What it writes is printed while it runs. -/
partial def follow (code : Code) (next : Nat) (machine : Machine) :
    IO (Except Error Unit × Tape) := do
  match code.runFrom 65536 next machine with
  | .unfinished next machine => follow code next (← print machine)
  | .finished result machine => return (result, (← print machine).tape)

/-- Executes a program on the standard streams. The input is read when the program has a use for
it. -/
def execute (tape : Tape) (program : List Instruction) : IO (Except Error Unit × Tape) := do
  match Code.load program with
  | .error e => return (.error e, tape)
  | .ok code =>
      let bytes ← if program.any (·.symbol == .input) then readAll (← IO.getStdin) .empty
        else pure .empty
      follow code 0 { tape, input := some (.ofBytes bytes.toList), output := some {} }

/-- Answers a dialogue. -/
def serve : Dialogue α → IO α
  | .done value => return value
  | .readStdin next => do serve (next (← readAll (← IO.getStdin) .empty).toList)
  | .readFile path next => do
      let result ← attempt (IO.FS.readBinFile path)
      serve (next (result.map (·.toList)))
  | .writeFile path text next => do serve (next (← attempt (IO.FS.writeFile path text)))
  | .scratch _ next => serve (next (.error (.other "no compiler can be started here")))
  | .launch _ _ next => serve (next (.error (.other "no compiler can be started here")))
  | .execute tape program next => do
      let (result, tape) ← execute tape program
      serve (next result tape)
  | .log record next => do
      IO.eprintln s!"[{record.level.name} {record.topic.name}] {record.message}"
      serve next
  | .print text next => do
      IO.print text
      serve next

end Brainfuck.CommandLine.Terminal

open Brainfuck.CommandLine in
/-- The program: answers its arguments and exits with the status of the ending. -/
def main (arguments : List String) : IO UInt32 := do
  let ending ← Terminal.serve (answer arguments)
  if ending = .misuse then
    IO.eprintln "usage: bf2cpp [-evxV] [-o FILE] [-O PASSES] [--tape-size N] [--indent N] INPUT"
  return .ofNat ending.status
