import Brainfuck.Emission.Layout
import Brainfuck.Pass
import Brainfuck.Source

/-!
From a source text to a C++ program in one go, with the default layout.
-/

namespace Brainfuck

/-- Reads a text, runs the selected passes and generates the program. A selection that cannot be
read is reported before the source is looked at. -/
def compile (source selection : String) : Except Error String := do
  let passes ← Pass.select selection
  let program ← Pass.runAll passes (Source.parse (Source.ofText source))
  Emission.Layout.generate {} program

end Brainfuck
