import Brainfuck.CommandLine.Log
import Brainfuck.Machine

/-!
Conversations with a host. The command line asks a host for what it cannot do itself: reading and
writing files, starting a compiler, running a program on the host's streams, and telling the user
something. A dialogue is the finite tree of these requests; what a host makes of them is said
elsewhere.
-/

namespace Brainfuck.CommandLine

/-- A conversation that ends with a value. `scratch` puts a text into a temporary file and is told
its name; `launch` starts a command and is told its exit status; `execute` runs a program on a
tape, and is told how it ended and what became of the tape. -/
inductive Dialogue (α : Type) : Type where
  | done (value : α)
  | readStdin (next : List UInt8 → Dialogue α)
  | readFile (path : String) (next : Except StreamFailure (List UInt8) → Dialogue α)
  | writeFile (path text : String) (next : Except StreamFailure Unit → Dialogue α)
  | scratch (text : String) (next : Except StreamFailure String → Dialogue α)
  | launch (command : String) (arguments : List String)
      (next : Except StreamFailure Nat → Dialogue α)
  | execute (tape : Tape) (program : List Instruction)
      (next : Except Error Unit → Tape → Dialogue α)
  | log (record : Record) (next : Dialogue α)
  | print (text : String) (next : Dialogue α)

namespace Dialogue

/-- One conversation after the other. -/
def bind (first : Dialogue α) (after : α → Dialogue β) : Dialogue β :=
  match first with
  | .done value => after value
  | .readStdin next => .readStdin fun bytes => (next bytes).bind after
  | .readFile path next => .readFile path fun result => (next result).bind after
  | .writeFile path text next => .writeFile path text fun result => (next result).bind after
  | .scratch text next => .scratch text fun result => (next result).bind after
  | .launch command arguments next =>
      .launch command arguments fun result => (next result).bind after
  | .execute tape program next =>
      .execute tape program fun result tape => (next result tape).bind after
  | .log record next => .log record (next.bind after)
  | .print text next => .print text (next.bind after)

instance : Monad Dialogue where
  pure := .done
  bind := bind

end Dialogue

end Brainfuck.CommandLine
