import Brainfuck.Span

/-!
What can go wrong, by cause. `SystemError` holds the refusals of a file system, `StreamFailure` the
ways in which a read or a write fails, and `Error` the failures of reading, shortening, writing out
and executing a program. The wording of each is in one `message` function.
-/

namespace Brainfuck

/-- The reasons for which an operating system refuses to touch a file. -/
inductive SystemError where
  | notFound
  | permissionDenied
  | notADirectory
  | isADirectory
  | nameTooLong
deriving DecidableEq, Repr

namespace SystemError

/-- The number by which the system reports the refusal. -/
def code : SystemError → Nat
  | .notFound => 2
  | .permissionDenied => 13
  | .notADirectory => 20
  | .isADirectory => 21
  | .nameTooLong => 36

/-- The system's own words for the refusal. -/
def reason : SystemError → String
  | .notFound => "No such file or directory"
  | .permissionDenied => "Permission denied"
  | .notADirectory => "Not a directory"
  | .isADirectory => "Is a directory"
  | .nameTooLong => "File name too long"

/-- The refusal with its number. -/
def message (e : SystemError) : String :=
  s!"{e.reason} (os error {e.code})"

end SystemError

/-- Why a read or a write did not happen. -/
inductive StreamFailure where
  | system (cause : SystemError)
  | nothingWritten
  | other (text : String)
deriving DecidableEq, Repr

/-- The wording of a failed read or write. -/
def StreamFailure.message : StreamFailure → String
  | .system cause => cause.message
  | .nothingWritten => "failed to write whole buffer"
  | .other text => text

/-- The failures of the library. `custom` is for passes of a caller's own. -/
inductive Error where
  | custom (text : String)
  | stream (failure : StreamFailure)
  | unbalancedLoop (span : Span)
  | runLengthOverflow (symbol : Char) (span : Span)
  | unknownPass (name : String)
  | emptyTape
deriving DecidableEq, Repr

/-- The wording of a failure. -/
def Error.message : Error → String
  | .custom text => text
  | .stream failure => "I/O error: " ++ failure.message
  | .unbalancedLoop span => s!"Unbalanced loop bracket at ({span.start}-{span.stop})"
  | .runLengthOverflow symbol span =>
      s!"Run of '{symbol}' too long to collapse at ({span.start}-{span.stop})"
  | .unknownPass name => "Unknown optimization pass: " ++ name
  | .emptyTape => "Tape size must be at least 1."

end Brainfuck
