import Brainfuck.CommandLine.Dialogue
import Brainfuck.FileSystem
import Brainfuck.Source

/-!
A host made of plain data: a file system, the standard input that is still unread, what has been
printed and logged, and the commands that can be started. `serve` lets it answer a dialogue. Its
commands only have an exit status; none of them touches a file.
-/

namespace Brainfuck.CommandLine

/-- A host's state. `temporary` names its scratch file, which lies outside the file system. -/
structure Host where
  files : FileSystem
  stdin : List UInt8 := []
  commands : List (String × Nat) := []
  temporary : String := "scratch.cpp"
  stdout : Array UInt8 := #[]
  log : Array Record := #[]
  launched : List (String × List String) := []
deriving DecidableEq, Repr

namespace Host

/-- The exit status of a command. A name without a slash is searched for among the commands, like
the name of a file; the dots lead to directories wherever they are searched for. A name with a slash
is a path, and nothing in the file system can be started. -/
def exitStatus (host : Host) (command : String) : Except SystemError Nat :=
  match host.commands.lookup command with
  | some status => .ok status
  | none =>
      if command.toList.contains '/' then do
        let _ ← host.files.lookUp command
        throw .permissionDenied
      else if FileSystem.nameLimit < command.utf8ByteSize then .error .nameTooLong
      else if command = "." || command = ".." then .error .permissionDenied
      else .error .notFound

/-- Lets a host answer a dialogue. A program that is executed reads the rest of the standard input
and writes to the standard output; if it does not end within the fuel, neither does the dialogue. -/
def serve (fuel : Nat) : Dialogue α → Host → Option (α × Host)
  | .done value, host => some (value, host)
  | .readStdin next, host => serve fuel (next host.stdin) { host with stdin := [] }
  | .readFile path next, host =>
      serve fuel (next ((host.files.read path).mapError .system)) host
  | .writeFile path text next, host =>
      match host.files.write path (Source.ofText text) with
      | .ok files => serve fuel (next (.ok ())) { host with files }
      | .error e => serve fuel (next (.error (.system e))) host
  | .scratch _ next, host => serve fuel (next (.ok host.temporary)) host
  | .launch command arguments next, host =>
      serve fuel (next ((host.exitStatus command).mapError .system))
        { host with launched := (command, arguments) :: host.launched }
  | .execute tape program next, host =>
      let input : InputStream := .ofBytes host.stdin
      match Machine.run fuel program { tape, input := some input, output := some {} } with
      | .unfinished _ _ => none
      | .finished result ⟨tape, input, output⟩ =>
          let bytesRead := (input.map (·.bytesRead)).getD 0
          let written := (output.map (·.written)).getD #[]
          serve fuel (next result tape)
            { host with stdin := host.stdin.drop bytesRead, stdout := host.stdout ++ written }
  | .log record next, host => serve fuel next { host with log := host.log.push record }
  | .print text next, host =>
      serve fuel next { host with stdout := host.stdout ++ (Source.ofText text).toArray }

end Host

end Brainfuck.CommandLine
