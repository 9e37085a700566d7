import Brainfuck.Machine
import Brainfuck.Proofs.LoopTree

/-!
The meaning of loop trees. There is no program counter and no jump table here: commands take effect
from left to right, a loop is left when the current cell is zero and gone through otherwise, and the
first failure ends everything. `Runs` adds the one flush behind the last command.
-/

namespace Brainfuck

/-- What a command does to a machine, and whether it fails. Without an input or an output, reading
or writing does nothing; at the end of the input the cell keeps its value. -/
inductive Command.Effect : Command → Machine → Except Error Unit → Machine → Prop where
  | act {action count span tape input output} :
      Effect (.act action count span) ⟨tape, input, output⟩ (.ok ())
        ⟨Machine.act count action tape, input, output⟩
  | noInput {span tape output} :
      Effect (.input span) ⟨tape, none, output⟩ (.ok ()) ⟨tape, none, output⟩
  | byte {span tape input output value rest} (read : input.read = (.ok (some value), rest)) :
      Effect (.input span) ⟨tape, some input, output⟩ (.ok ()) ⟨tape.set value, some rest, output⟩
  | endOfInput {span tape input output rest} (read : input.read = (.ok none, rest)) :
      Effect (.input span) ⟨tape, some input, output⟩ (.ok ()) ⟨tape, some rest, output⟩
  | readFailure {span tape input output why rest} (read : input.read = (.error why, rest)) :
      Effect (.input span) ⟨tape, some input, output⟩ (.error (.stream why))
        ⟨tape, some rest, output⟩
  | noOutput {span tape input} :
      Effect (.output span) ⟨tape, input, none⟩ (.ok ()) ⟨tape, input, none⟩
  | written {span tape input output rest} (write : output.write tape.value = (.ok (), rest)) :
      Effect (.output span) ⟨tape, input, some output⟩ (.ok ()) ⟨tape, input, some rest⟩
  | writeFailure {span tape input output why rest}
      (write : output.write tape.value = (.error why, rest)) :
      Effect (.output span) ⟨tape, input, some output⟩ (.error (.stream why))
        ⟨tape, input, some rest⟩

theorem Command.effect_iff {command : Command} {machine after : Machine}
    {result : Except Error Unit} :
    command.Effect machine result after ↔
      machine.perform command.instruction = (result, after) := by
  constructor
  · intro effect
    cases effect with
    | act => rfl
    | noInput => rfl
    | byte read => simp [instruction, Machine.perform, Machine.readCell, read]
    | endOfInput read => simp [instruction, Machine.perform, Machine.readCell, read]
    | readFailure read => simp [instruction, Machine.perform, Machine.readCell, read]
    | noOutput => rfl
    | written write =>
        simp [instruction, Machine.perform, Machine.writeCell, write, Except.mapError]
    | writeFailure write =>
        simp [instruction, Machine.perform, Machine.writeCell, write, Except.mapError]
  · intro performed
    obtain ⟨tape, input, output⟩ := machine
    cases command with
    | act action count span =>
        cases performed
        exact .act
    | output span =>
        cases output with
        | none =>
            cases performed
            exact .noOutput
        | some output =>
            rcases h : output.write tape.value with ⟨answer, rest⟩
            simp only [instruction, Machine.perform, Machine.writeCell, h] at performed
            cases answer with
            | ok done =>
                cases performed
                exact .written h
            | error why =>
                cases performed
                exact .writeFailure h
    | input span =>
        cases input with
        | none =>
            cases performed
            exact .noInput
        | some input =>
            rcases h : input.read with ⟨answer, rest⟩
            simp only [instruction, Machine.perform, Machine.readCell, h] at performed
            cases answer with
            | error why =>
                cases performed
                exact .readFailure h
            | ok value =>
                cases value with
                | none =>
                    cases performed
                    exact .endOfInput h
                | some value =>
                    cases performed
                    exact .byte h

namespace LoopTree

/-- An execution of a tree, with its result and the machine that it leaves behind. -/
inductive Execution : LoopTree → Machine → Except Error Unit → Machine → Prop where
  | nil {machine} : Execution .nil machine (.ok ()) machine
  | command {command rest machine next result after}
      (effect : command.Effect machine (.ok ()) next) (tail : Execution rest next result after) :
      Execution (.leaf command rest) machine result after
  | failure {command rest machine e after} (effect : command.Effect machine (.error e) after) :
      Execution (.leaf command rest) machine (.error e) after
  | leave {start stop body rest machine result after}
      (zero : machine.tape.value = 0) (tail : Execution rest machine result after) :
      Execution (.loop start stop body rest) machine result after
  | iterate {start stop body rest machine next result after}
      (nonzero : machine.tape.value ≠ 0) (pass : Execution body machine (.ok ()) next)
      (again : Execution (.loop start stop body rest) next result after) :
      Execution (.loop start stop body rest) machine result after
  | abort {start stop body rest machine e after}
      (nonzero : machine.tape.value ≠ 0) (pass : Execution body machine (.error e) after) :
      Execution (.loop start stop body rest) machine (.error e) after

/-- A whole run of a tree. Behind the last command the output is flushed once, if there is one; a
failure on the way leaves no flush. -/
inductive Runs (tree : LoopTree) (machine : Machine) : Except Error Unit → Machine → Prop where
  | failure {e after} (execution : Execution tree machine (.error e) after) :
      Runs tree machine (.error e) after
  | noOutput {tape input} (execution : Execution tree machine (.ok ()) ⟨tape, input, none⟩) :
      Runs tree machine (.ok ()) ⟨tape, input, none⟩
  | flushed {tape input output rest}
      (execution : Execution tree machine (.ok ()) ⟨tape, input, some output⟩)
      (flush : output.flush = (.ok (), rest)) :
      Runs tree machine (.ok ()) ⟨tape, input, some rest⟩
  | flushFailure {tape input output why rest}
      (execution : Execution tree machine (.ok ()) ⟨tape, input, some output⟩)
      (flush : output.flush = (.error why, rest)) :
      Runs tree machine (.error (.stream why)) ⟨tape, input, some rest⟩

theorem runs_iff {tree : LoopTree} {machine after : Machine} {result : Except Error Unit} :
    tree.Runs machine result after ↔
      (∃ last, Execution tree machine (.ok ()) last ∧ last.flush = (result, after)) ∨
        ∃ e, result = .error e ∧ Execution tree machine (.error e) after := by
  constructor
  · intro runs
    cases runs with
    | failure execution => exact .inr ⟨_, rfl, execution⟩
    | noOutput execution => exact .inl ⟨_, execution, rfl⟩
    | flushed execution flush =>
        exact .inl ⟨_, execution, by simp [Machine.flush, flush, Except.mapError]⟩
    | flushFailure execution flush =>
        exact .inl ⟨_, execution, by simp [Machine.flush, flush, Except.mapError]⟩
  · rintro (⟨⟨tape, input, output⟩, execution, flushed⟩ | ⟨e, rfl, execution⟩)
    · cases output with
      | none =>
          cases flushed
          exact .noOutput execution
      | some output =>
          rcases h : output.flush with ⟨answer, rest⟩
          simp only [Machine.flush, h] at flushed
          cases answer with
          | ok done =>
              cases flushed
              exact .flushed execution h
          | error why =>
              cases flushed
              exact .flushFailure execution h
    · exact .failure execution

end LoopTree

end Brainfuck
