import Brainfuck.Loops
import Brainfuck.Stream
import Brainfuck.Tape

/-!
Executing programs. A machine is a tape with an optional input and an optional output; they stay
with it from one program to the next. `Code` is a program with its jump table, and `Code.runFrom`
follows it from an index on. Fuel counts instructions, and running out of it is an outcome of its
own: a program that goes on forever is one that no amount of fuel brings to its end.
-/

namespace Brainfuck

/-- What a program works on. -/
structure Machine where
  tape : Tape
  input : Option InputStream := none
  output : Option OutputStream := none
deriving DecidableEq, Repr

namespace Machine

/-- Reads a byte into the current cell. At the end of the input, and without an input, the cell
keeps its value. -/
def readCell : Machine → Except Error Unit × Machine
  | ⟨tape, none, output⟩ => (.ok (), ⟨tape, none, output⟩)
  | ⟨tape, some input, output⟩ =>
      match input.read with
      | (.ok (some value), input) => (.ok (), ⟨tape.set value, some input, output⟩)
      | (.ok none, input) => (.ok (), ⟨tape, some input, output⟩)
      | (.error why, input) => (.error (.stream why), ⟨tape, some input, output⟩)

/-- Writes the current cell. Without an output nothing happens. -/
def writeCell : Machine → Except Error Unit × Machine
  | ⟨tape, input, none⟩ => (.ok (), ⟨tape, input, none⟩)
  | ⟨tape, input, some output⟩ =>
      let (result, output) := output.write tape.value
      (result.mapError .stream, ⟨tape, input, some output⟩)

/-- Flushes the output, if there is one. -/
def flush : Machine → Except Error Unit × Machine
  | ⟨tape, input, none⟩ => (.ok (), ⟨tape, input, none⟩)
  | ⟨tape, input, some output⟩ =>
      let (result, output) := output.flush
      (result.mapError .stream, ⟨tape, input, some output⟩)

/-- The effect of an action on a tape. -/
def act (count : UInt32) : Action → Tape → Tape
  | .right => Tape.moveRight count.toNat
  | .left => Tape.moveLeft count.toNat
  | .add => Tape.add count
  | .sub => Tape.sub count

/-- What an instruction does to a machine. Brackets only direct control. -/
def perform : Instruction → Machine → Except Error Unit × Machine
  | .act action count _, ⟨tape, input, output⟩ => (.ok (), ⟨act count action tape, input, output⟩)
  | .input _, machine => machine.readCell
  | .output _, machine => machine.writeCell
  | .loopStart _, machine => (.ok (), machine)
  | .loopEnd _, machine => (.ok (), machine)

end Machine

/-- A program with the partner of each of its brackets. -/
structure Code where
  instructions : Array Instruction
  jumps : Array Nat
deriving DecidableEq, Repr

/-- How a bounded run ends: with a result, or still going at the next instruction's index. -/
inductive Outcome where
  | finished (result : Except Error Unit) (machine : Machine)
  | unfinished (next : Nat) (machine : Machine)

namespace Code

/-- A program made ready to run. A program whose brackets do not match is refused. -/
def load (program : List Instruction) : Except Error Code := do
  return ⟨program.toArray, ← Loops.jumps program⟩

/-- Where control goes after the instruction at `index`, given the current cell. A loop start skips
to behind its partner when the cell is zero, and a loop end returns to behind its partner when the
cell is not zero. -/
def next (code : Code) (index : Nat) (cell : UInt8) : Instruction → Nat
  | .loopStart _ => if cell = 0 then code.jumps.getD index index + 1 else index + 1
  | .loopEnd _ => if cell = 0 then index + 1 else code.jumps.getD index index + 1
  | _ => index + 1

/-- Runs a program from an index on. The first failure ends the run; behind the last instruction
the output is flushed. -/
def runFrom (code : Code) : Nat → Nat → Machine → Outcome
  | 0, index, machine => .unfinished index machine
  | fuel + 1, index, machine =>
      match code.instructions[index]? with
      | none =>
          let (result, machine) := machine.flush
          .finished result machine
      | some instruction =>
          match machine.perform instruction with
          | (.error e, machine) => .finished (.error e) machine
          | (.ok (), machine) =>
              let index := code.next index machine.tape.value instruction
              runFrom code fuel index machine

end Code

/-- Runs a whole program. Brackets that do not match are found before anything happens. -/
def Machine.run (fuel : Nat) (program : List Instruction) (machine : Machine) : Outcome :=
  match Code.load program with
  | .error e => .finished (.error e) machine
  | .ok code => code.runFrom fuel 0 machine

end Brainfuck
