/-!
Texts made of lines. Every line ends in a line feed, the last one too.
-/

namespace Brainfuck.Text

/-- The text of some lines, each ended by a line feed. -/
def unlines (lines : List String) : String :=
  String.join (lines.map (· ++ "\n"))

theorem unlines_append (a b : List String) : unlines (a ++ b) = unlines a ++ unlines b := by
  simp [unlines, String.join_append]

end Brainfuck.Text
