import Brainfuck.Error
import Brainfuck.Instruction

/-!
Collapsing runs. A program splits into maximal blocks of neighbours with one symbol. A block of an
action becomes one instruction, whose count is the sum of the block's counts and whose span covers
the block; every other block stays as it is. Counts are 32-bit and never wrap: the first sum that
does not fit ends the pass with the span of the block up to that place.
-/

namespace Brainfuck.RunLength

/-- The maximal blocks of neighbours with one symbol, in order. -/
def blocks (program : List Instruction) : List (List Instruction) :=
  program.splitBy fun a b => a.symbol == b.symbol

/-- The part of a block that has been added up so far. -/
structure Sum where
  count : UInt32
  span : Span
deriving DecidableEq, Repr

/-- The sum with the block's next instruction, if the count still fits. -/
def Sum.add (action : Action) (sum : Sum) (next : Instruction) : Except Error Sum :=
  let span := sum.span.cover next.span
  if sum.count.toNat + next.count.toNat < UInt32.size then
    .ok ⟨sum.count + next.count, span⟩
  else
    .error (.runLengthOverflow (Symbol.act action).char span)

/-- A block of an action as one instruction, and any other block unchanged. -/
def mergeBlock : List Instruction → Except Error (List Instruction)
  | .act action count span :: rest => do
      let sum ← rest.foldlM (Sum.add action) ⟨count, span⟩
      return [.act action sum.count sum.span]
  | block => .ok block

/-- The program with every block merged. Blocks are merged in order, so the first one that does
not fit is the one reported. -/
def collapse (program : List Instruction) : Except Error (List Instruction) := do
  return (← (blocks program).mapM mergeBlock).flatten

end Brainfuck.RunLength
