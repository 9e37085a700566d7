import Brainfuck.Proofs.Emission.Buffer
import Brainfuck.Proofs.Nest

/-!
The statements of a generated program as a small language of their own. A step is a method call or
an assignment, a statement is a step or a counted repetition of one, and a body is statements with
while loops on the current cell. `Execution` runs a body on an object of the tape class and the
standard streams. An execution that comes upon something undefined ends there, without a store.
-/

namespace Brainfuck.Emission

/-- What the statements work on: the tape object, the input bytes still to come with the number of
those consumed, and the output. -/
structure Store where
  tape : Buffer
  input : List UInt8
  consumed : Nat := 0
  output : Array UInt8 := #[]
deriving DecidableEq, Repr

/-- The store at the start of the statements: a newly constructed tape, all of the input, and no
output. -/
def Store.start? (capacity : Nat) (input : List UInt8) : Option Store := do
  let tape ← Buffer.construct? capacity
  return { tape, input }

/-! ### Statements -/

/-- A method call or an assignment. -/
inductive Step where
  | moveRight
  | moveLeft
  | increment
  | decrement
  | add (amount : Nat)
  | subtract (amount : Nat)
  | input
  | output
deriving DecidableEq, Repr

/-- The effect of a step. The end of the input is met without consuming anything, and the cell keeps
its value. -/
def Step.run? : Step → Store → Option Store
  | .moveRight, store => do return { store with tape := ← store.tape.moveRight? }
  | .moveLeft, store => do return { store with tape := ← store.tape.moveLeft? }
  | .increment, store => do return { store with tape := ← store.tape.increment? }
  | .decrement, store => do return { store with tape := ← store.tape.decrement? }
  | .add amount, store => do return { store with tape := ← store.tape.add? amount }
  | .subtract amount, store => do return { store with tape := ← store.tape.subtract? amount }
  | .input, store =>
      match store.input with
      | [] => some store
      | value :: rest => do
          let tape ← store.tape.write? value
          return { store with tape, input := rest, consumed := store.consumed + 1 }
  | .output, store => do return { store with output := store.output.push (← store.tape.read?) }

/-- A step done once, or a counting loop around it. -/
inductive Statement where
  | once (step : Step)
  | repeated (count : Nat) (step : Step)
deriving DecidableEq, Repr

/-- A step done a number of times. -/
def Step.repeat? (step : Step) : Nat → Store → Option Store
  | 0, store => some store
  | count + 1, store => do
      let store ← step.run? store
      step.repeat? count store

/-- The effect of a statement. -/
def Statement.run? : Statement → Store → Option Store
  | .once step => step.run?
  | .repeated count step => step.repeat? count

/-! ### Bodies -/

/-- Statements with while loops. -/
abbrev Body := Nest Statement Unit Unit

/-- An execution of a body, with the store that it leaves behind, or none if it comes upon something
undefined. A loop looks at the current cell before every pass. -/
inductive Body.Execution : Body → Store → Option Store → Prop where
  | nil {store} : Execution .nil store (some store)
  | statement {statement rest store next ending} (effect : statement.run? store = some next)
      (tail : Execution rest next ending) : Execution (.leaf statement rest) store ending
  | badStatement {statement rest store} (undefined : statement.run? store = none) :
      Execution (.leaf statement rest) store none
  | leave {start stop body rest store ending} (zero : store.tape.read? = some 0)
      (tail : Execution rest store ending) : Execution (.loop start stop body rest) store ending
  | iterate {start stop body rest store cell next ending} (found : store.tape.read? = some cell)
      (nonzero : cell ≠ 0) (pass : Execution body store (some next))
      (again : Execution (.loop start stop body rest) next ending) :
      Execution (.loop start stop body rest) store ending
  | badPass {start stop body rest store cell} (found : store.tape.read? = some cell)
      (nonzero : cell ≠ 0) (pass : Execution body store none) :
      Execution (.loop start stop body rest) store none
  | badCell {start stop body rest store} (undefined : store.tape.read? = none) :
      Execution (.loop start stop body rest) store none

end Brainfuck.Emission
