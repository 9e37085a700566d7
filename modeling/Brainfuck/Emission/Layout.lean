import Brainfuck.Emission.Frame
import Brainfuck.Emission.Listing
import Brainfuck.Tape

/-!
Generating whole C++ programs. A layout fixes how deep loops are indented and how long a new tape
is; it keeps nothing from one program to the next. Nothing is generated for a program whose loop
brackets do not match.
-/

namespace Brainfuck.Emission

/-- The settings of generated programs. A tape has at least one cell. -/
structure Layout where
  indentWidth : Nat := 4
  tapeSize : Nat := Tape.defaultCapacity
  tapeSize_pos : 0 < tapeSize := by decide
deriving DecidableEq, Repr

namespace Layout

/-- The layout with these settings, unless the tape would have no cell. -/
def ofSizes (indentWidth tapeSize : Nat) : Except Error Layout :=
  if h : 0 < tapeSize then .ok { indentWidth, tapeSize, tapeSize_pos := h }
  else .error .emptyTape

/-- The lines of a program's statements. -/
def statements (layout : Layout) (program : List Instruction) : Except Error (Array String) := do
  let listing ← program.foldlM Listing.append { indentWidth := layout.indentWidth }
  listing.close

/-- The whole text around some statement lines. -/
def enclose (layout : Layout) (lines : Array String) : String :=
  Frame.head layout.tapeSize ++ Text.unlines lines.toList ++ Frame.foot

/-- The C++ program that does what the instructions say. -/
def generate (layout : Layout) (program : List Instruction) : Except Error String :=
  layout.enclose <$> layout.statements program

end Layout

end Brainfuck.Emission
