import Brainfuck.Error
import Brainfuck.Instruction

/-!
Statement lines with nested loops. A listing knows the loops that are open and the lines written so
far, and writes every line at the depth of its loops. Lines are only ever appended. The one thing
that can fail is leaving a loop when none is open, and it changes nothing.
-/

namespace Brainfuck.Emission

/-- Statements in the making. `openLoops` holds the spans of the open loop starts, innermost
first. -/
structure Listing where
  indentWidth : Nat := 0
  openLoops : List Span := []
  lines : Array String := #[]
deriving DecidableEq, Repr

namespace Listing

/-- The number of open loops. -/
def depth (listing : Listing) : Nat :=
  listing.openLoops.length

/-- The blanks before a statement. The main function's body is itself one level deep. -/
def margin (listing : Listing) : String :=
  String.ofList (List.replicate (listing.indentWidth * (listing.depth + 1)) ' ')

/-- Appends a statement at the present depth. -/
def write (listing : Listing) (statement : String) : Listing :=
  let line := listing.margin ++ statement
  { listing with lines := listing.lines.push line }

/-- Writes the head of a loop and enters it. -/
def enterLoop (listing : Listing) (span : Span) : Listing :=
  let listing := listing.write "while (tape.read() != 0) \x7b"
  { listing with openLoops := span :: listing.openLoops }

/-- Leaves the innermost loop and writes its end. Without an open loop the bracket at `span` is
unbalanced. -/
def leaveLoop (listing : Listing) (span : Span) : Except Error Listing :=
  match listing.openLoops with
  | [] => .error (.unbalancedLoop span)
  | _ :: outer => .ok ({ listing with openLoops := outer }.write "\x7d")

/-- The statement for an action done once. -/
def onceStatement : Action → String
  | .right => "tape.move_right();"
  | .left => "tape.move_left();"
  | .add => "tape.increment();"
  | .sub => "tape.decrement();"

/-- The statement for a counted action. -/
def countedStatement (count : UInt32) : Action → String
  | .right => s!"for (std::size_t i = 0; i < {count}; ++i) tape.move_right();"
  | .left => s!"for (std::size_t i = 0; i < {count}; ++i) tape.move_left();"
  | .add => s!"tape.current() += {count};"
  | .sub => s!"tape.current() -= {count};"

/-- The statement for an action, in the short form when it is done once. -/
def actionStatement (action : Action) (count : UInt32) : String :=
  if count = 1 then onceStatement action else countedStatement count action

/-- Appends the line of one instruction. -/
def append (listing : Listing) : Instruction → Except Error Listing
  | .act action count _ => .ok (listing.write (actionStatement action count))
  | .output _ => .ok (listing.write "tape.output();")
  | .input _ => .ok (listing.write "tape.input();")
  | .loopStart span => .ok (listing.enterLoop span)
  | .loopEnd span => listing.leaveLoop span

/-- All lines, if no loop is open; otherwise the innermost open loop is unbalanced. -/
def close (listing : Listing) : Except Error (Array String) :=
  match listing.openLoops with
  | [] => .ok listing.lines
  | span :: _ => .error (.unbalancedLoop span)

end Listing

end Brainfuck.Emission
