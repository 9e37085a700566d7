import Brainfuck.Error
import Brainfuck.Instruction

/-!
Matching loop brackets. `jumps` scans a program once and gives every bracket the index of its
partner. It fails at the first loop end without an open loop or, when there is none, with the last
loop start that is never closed.
-/

namespace Brainfuck.Loops

/-- A scan in progress: the table so far, and the open loop starts, innermost first, each with its
index. -/
structure Scan where
  jumps : Array Nat
  openLoops : List (Nat × Span)
deriving DecidableEq, Repr

/-- The scan after one more instruction, which stands at the given index. A loop end closes the
innermost open loop, and the two become partners. -/
def Scan.step : Scan → Instruction × Nat → Except Error Scan
  | ⟨jumps, openLoops⟩, (.loopStart span, index) => .ok ⟨jumps, (index, span) :: openLoops⟩
  | ⟨_, []⟩, (.loopEnd span, _) => .error (.unbalancedLoop span)
  | ⟨jumps, (partner, _) :: outer⟩, (.loopEnd _, index) =>
      .ok ⟨(jumps.setIfInBounds partner index).setIfInBounds index partner, outer⟩
  | scan, _ => .ok scan

/-- For every index of a program the index of the partner bracket, and for an instruction that is
no bracket its own index. -/
def jumps (program : List Instruction) : Except Error (Array Nat) := do
  let scan ← program.zipIdx.foldlM Scan.step ⟨Array.range program.length, []⟩
  match scan.openLoops with
  | [] => return scan.jumps
  | (_, span) :: _ => throw (.unbalancedLoop span)

end Brainfuck.Loops
