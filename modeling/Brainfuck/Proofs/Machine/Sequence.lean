import Brainfuck.Proofs.Machine.FailingOutput

/-!
One program after another. The tree of a concatenation is one tree with the other one behind it, and
an execution of it is an execution of the first tree, followed by one of the second unless the first
has failed (`execution_append_iff`). Two runs in a row flush the output once more than the run of
the concatenation does, and an additional flush that succeeds makes no difference to what follows
(`lockstep_oneFlushLess`); so running a concatenation is running its parts (`ends_append`).
-/

namespace Brainfuck

namespace LoopTree

/-! ### Trees in a row -/

/-- What follows an execution that has ended: a failure is the end of all, and otherwise the tree is
executed. -/
def Follows (tree : LoopTree) (machine : Machine) (result : Except Error Unit) (after : Machine) :
    Except Error Unit → Prop
  | .ok () => tree.Execution machine result after
  | .error e => result = .error e ∧ after = machine

variable {first second : LoopTree} {machine middle after : Machine}
  {result ending : Except Error Unit}

theorem Execution.append (part : first.Execution machine ending middle)
    (follows : second.Follows middle result after ending) :
    Execution (first.append second) machine result after := by
  induction part with
  | nil => exact follows
  | command effect tail ih => exact .command effect (ih follows)
  | failure effect =>
      obtain ⟨rfl, rfl⟩ := follows
      exact .failure effect
  | leave zero tail ih => exact .leave zero (ih follows)
  | iterate nonzero pass again ihPass ihAgain => exact .iterate nonzero pass (ihAgain follows)
  | abort nonzero pass ih =>
      obtain ⟨rfl, rfl⟩ := follows
      exact .abort nonzero pass

theorem Execution.exists_of_append
    (execution : Execution (first.append second) machine result after) :
    ∃ ending middle, first.Execution machine ending middle ∧
      second.Follows middle result after ending := by
  induction first generalizing machine result after with
  | nil => exact ⟨.ok (), machine, .nil, execution⟩
  | leaf command rest ih =>
      cases execution with
      | command effect tail =>
          obtain ⟨ending, middle, part, follows⟩ := ih tail
          exact ⟨ending, middle, .command effect part, follows⟩
      | failure effect => exact ⟨_, _, .failure effect, rfl, rfl⟩
  | loop start stop body rest _ ih =>
      -- Behind a pass stands the same loop, so this is on the passes.
      generalize whole : (Nest.loop start stop body rest).append second = tree at execution
      induction execution with
      | leave zero tail =>
          cases whole
          obtain ⟨ending, middle, part, follows⟩ := ih tail
          exact ⟨ending, middle, .leave zero part, follows⟩
      | iterate nonzero pass again _ ihAgain =>
          cases whole
          obtain ⟨ending, middle, part, follows⟩ := ihAgain rfl
          exact ⟨ending, middle, .iterate nonzero pass part, follows⟩
      | abort nonzero pass =>
          cases whole
          exact ⟨_, _, .abort nonzero pass, rfl, rfl⟩
      | _ => cases whole

/-- Executing two trees in a row is executing the first one, and then the second one unless the
first one has failed. -/
theorem execution_append_iff :
    Execution (first.append second) machine result after ↔
      ∃ ending middle, first.Execution machine ending middle ∧
        second.Follows middle result after ending := by
  constructor
  · exact Execution.exists_of_append
  · rintro ⟨ending, middle, part, follows⟩
    exact part.append follows

/-- What every instruction keeps, an execution keeps. -/
theorem Execution.keeps {P : Machine → Prop} {tree : LoopTree}
    (step : ∀ (instruction : Instruction) (machine : Machine), P machine →
      P (machine.perform instruction).2)
    (execution : tree.Execution machine result after) (start : P machine) : P after := by
  have effect_keeps {command : Command} {machine after : Machine} {result : Except Error Unit}
      (effect : command.Effect machine result after) (before : P machine) : P after := by
    have kept := step command.instruction machine before
    rwa [Command.effect_iff.mp effect] at kept
  induction execution with
  | nil => exact start
  | command effect tail ih => exact ih (effect_keeps effect start)
  | failure effect => exact effect_keeps effect start
  | leave zero tail ih => exact ih start
  | iterate nonzero pass again ihPass ihAgain => exact ihAgain (ihPass start)
  | abort nonzero pass ih => exact ih start

end LoopTree

/-! ### Flushes -/

/-- Writing does not look at how often the output has been flushed. -/
theorem OutputStream.write_flush (value : UInt8) (stream : OutputStream) :
    write value stream.flush.2 = ((stream.write value).1, (stream.write value).2.flush.2) := by
  rcases reply : nextReply stream.pending with ⟨_ | _, rest⟩ <;> simp only [write, flush, reply]

namespace Machine

/-- Flushing the output, if there is one, succeeds every time. -/
def FlushSucceeds (machine : Machine) : Prop :=
  ∀ output, machine.output = some output → output.AlwaysFlushes

theorem FlushSucceeds.perform {machine : Machine} (succeeds : machine.FlushSucceeds)
    (instruction : Instruction) : (machine.perform instruction).2.FlushSucceeds := by
  obtain ⟨tape, input, output⟩ := machine
  by_cases writes : ∃ span, instruction = .output span
  · obtain ⟨span, rfl⟩ := writes
    cases output with
    | none => exact nofun
    | some output =>
        intro _ same
        rw [← Option.some.inj same]
        exact (output.extends_write tape.value).alwaysFlushes (succeeds output rfl)
  · obtain ⟨result, tape', input', performed⟩ :=
      exists_perform_of_ne_output (not_exists.mp writes) tape input
    rw [performed]
    exact succeeds

theorem FlushSucceeds.flush {machine : Machine} (succeeds : machine.FlushSucceeds) :
    machine.flush.1 = .ok () ∧ machine.flush.2.FlushSucceeds := by
  obtain ⟨tape, input, _ | output⟩ := machine
  · exact ⟨rfl, nofun⟩
  · obtain ⟨flushed, still⟩ := (succeeds output rfl).flush
    refine ⟨?_, ?_⟩
    · simp only [Machine.flush, flushed]
      rfl
    · rintro _ ⟨⟩
      exact still

/-- Two machines that differ in nothing, except that the output of the second one, if there is one,
has been flushed once more. -/
structure OneFlushLess (fewer more : Machine) : Prop where
  tape : fewer.tape = more.tape
  input : fewer.input = more.input
  output : more.output = fewer.output.map fun stream => { stream with
    nextFlushes := stream.nextFlushes.tail
    flushes := stream.flushes + 1 }

theorem oneFlushLess_flush (machine : Machine) : OneFlushLess machine machine.flush.2 := by
  obtain ⟨tape, input, _ | output⟩ := machine <;> exact ⟨rfl, rfl, rfl⟩

theorem OneFlushLess.eq {fewer more : Machine} (less : OneFlushLess fewer more) :
    more = fewer.flush.2 := by
  obtain ⟨tape, input, output⟩ := fewer
  obtain ⟨_, _, _⟩ := more
  obtain ⟨rfl, rfl, rfl⟩ := less
  cases output <;> rfl

/-- A flush commutes with every instruction. -/
theorem perform_flush (instruction : Instruction) (machine : Machine) :
    machine.flush.2.perform instruction =
      ((machine.perform instruction).1, (machine.perform instruction).2.flush.2) := by
  obtain ⟨tape, input, output⟩ := machine
  by_cases writes : ∃ span, instruction = .output span
  · obtain ⟨span, rfl⟩ := writes
    cases output with
    | none => rfl
    | some output => simp only [Machine.flush, Machine.perform, writeCell, OutputStream.write_flush]
  · obtain ⟨result, tape', input', performed⟩ :=
      exists_perform_of_ne_output (not_exists.mp writes) tape input
    cases output <;> simp only [Machine.flush, performed]

/-- Machines that differ in one flush alone go through every program in step, when flushing
succeeds. -/
theorem lockstep_oneFlushLess :
    Lockstep fun fewer more => fewer.FlushSucceeds ∧ OneFlushLess fewer more where
  value related := congrArg Tape.value related.2.tape
  perform := by
    rintro fewer more instruction ⟨succeeds, less⟩
    rw [less.eq, perform_flush]
    exact ⟨rfl, succeeds.perform instruction, oneFlushLess_flush _⟩
  flush := by
    rintro fewer more ⟨succeeds, less⟩
    obtain ⟨done, still⟩ := succeeds.flush
    rw [less.eq, done, still.flush.1]
    exact ⟨rfl, still, oneFlushLess_flush _⟩

/-! ### Programs in a row -/

section

variable {first second : LoopTree} {machine middle after : Machine} {result : Except Error Unit}

/-- Running two trees in a row is executing the first one and then, unless this has failed, running
the second one. -/
theorem ends_append_instructions_iff :
    machine.Ends (LoopTree.instructions (first.append second)) result after ↔
      (∃ last, first.Execution machine (.ok ()) last ∧
        last.Ends second.instructions result after) ∨
      ∃ e, result = .error e ∧ first.Execution machine (.error e) after := by
  simp only [ends_instructions_iff, LoopTree.runs_iff]
  constructor
  · rintro (⟨last, execution, flush⟩ | ⟨e, rfl, execution⟩)
    · obtain ⟨e' | done, middle, part, follows⟩ := LoopTree.execution_append_iff.mp execution
      · cases follows.1
      · exact .inl ⟨middle, part, .inl ⟨last, follows, flush⟩⟩
    · obtain ⟨e' | done, middle, part, follows⟩ := LoopTree.execution_append_iff.mp execution
      · obtain ⟨same, rfl⟩ := follows
        cases same
        exact .inr ⟨e, rfl, part⟩
      · exact .inl ⟨middle, part, .inr ⟨e, rfl, follows⟩⟩
  · rintro (⟨middle, part, ⟨last, execution, flush⟩ | ⟨e, rfl, execution⟩⟩ | ⟨e, rfl, part⟩)
    · exact .inl ⟨last, LoopTree.execution_append_iff.mpr ⟨_, _, part, execution⟩, flush⟩
    · exact .inr ⟨e, rfl, LoopTree.execution_append_iff.mpr ⟨_, _, part, execution⟩⟩
    · exact .inr ⟨e, rfl, LoopTree.execution_append_iff.mpr ⟨_, _, part, rfl, rfl⟩⟩

theorem flushSucceeds_of_execution {tree : LoopTree} (succeeds : machine.FlushSucceeds)
    (execution : tree.Execution machine result after) : after.FlushSucceeds :=
  execution.keeps (fun instruction _ kept => kept.perform instruction) succeeds

/-- A tree whose execution comes to its end has a run that ends, with a flush. -/
theorem ends_of_execution_ok {tree : LoopTree} {last : Machine}
    (execution : tree.Execution machine (.ok ()) last) :
    machine.Ends tree.instructions last.flush.1 last.flush.2 :=
  ends_instructions_iff.mpr (LoopTree.runs_iff.mpr (.inl ⟨last, execution, rfl⟩))

theorem ends_of_execution_error {tree : LoopTree} {e : Error}
    (execution : tree.Execution machine (.error e) after) :
    machine.Ends tree.instructions (.error e) after :=
  ends_instructions_iff.mpr (LoopTree.runs_iff.mpr (.inr ⟨e, rfl, execution⟩))

/-- What the run of two trees in a row does after the first one has succeeded, the second one does
on its own, on a machine with one flush more. -/
theorem exists_ends_of_ends_append (succeeds : machine.FlushSucceeds)
    (succeeded : machine.Ends first.instructions (.ok ()) middle)
    (ended : machine.Ends (LoopTree.instructions (first.append second)) result after) :
    ∃ after', middle.Ends second.instructions result after' ∧ OneFlushLess after after' := by
  rcases ends_append_instructions_iff.mp ended with ⟨last, part, ends⟩ | ⟨e, rfl, part⟩
  · obtain ⟨-, rfl⟩ := ends_unique succeeded (ends_of_execution_ok part)
    obtain ⟨after', ends', -, less⟩ := lockstep_oneFlushLess.ends
      ⟨flushSucceeds_of_execution succeeds part, oneFlushLess_flush last⟩ ends
    exact ⟨after', ends', less⟩
  · cases (ends_unique succeeded (ends_of_execution_error part)).1

theorem exists_ends_append_of_ends (succeeds : machine.FlushSucceeds)
    (succeeded : machine.Ends first.instructions (.ok ()) middle)
    (ended : middle.Ends second.instructions result after) :
    ∃ after', machine.Ends (LoopTree.instructions (first.append second)) result after' ∧
      OneFlushLess after' after := by
  rcases LoopTree.runs_iff.mp (ends_instructions_iff.mp succeeded) with
    ⟨last, part, flush⟩ | ⟨e, failed, -⟩
  · have less : OneFlushLess last middle := by
      have flushed := oneFlushLess_flush last
      rwa [flush] at flushed
    obtain ⟨after', ends, -, less'⟩ := lockstep_oneFlushLess.flip.ends
      ⟨flushSucceeds_of_execution succeeds part, less⟩ ended
    exact ⟨after', ends_append_instructions_iff.mpr (.inl ⟨last, part, ends⟩), less'⟩
  · cases failed

/-- When flushing succeeds, a first tree that fails has failed on the way. -/
theorem ends_append_of_error {e : Error} (succeeds : machine.FlushSucceeds)
    (failed : machine.Ends first.instructions (.error e) after) :
    machine.Ends (LoopTree.instructions (first.append second)) (.error e) after := by
  rcases LoopTree.runs_iff.mp (ends_instructions_iff.mp failed) with
    ⟨last, part, flush⟩ | ⟨_, same, part⟩
  · have flushed := (flushSucceeds_of_execution succeeds part).flush.1
    rw [flush] at flushed
    cases flushed
  · cases same
    exact ends_append_instructions_iff.mpr (.inr ⟨e, rfl, part⟩)

theorem exists_ends_of_exists_ends_append
    (ends : ∃ result after,
      machine.Ends (LoopTree.instructions (first.append second)) result after) :
    ∃ result after, machine.Ends first.instructions result after := by
  obtain ⟨result, after, ended⟩ := ends
  rcases ends_append_instructions_iff.mp ended with ⟨last, part, -⟩ | ⟨e, -, part⟩
  · exact ⟨_, _, ends_of_execution_ok part⟩
  · exact ⟨_, _, ends_of_execution_error part⟩

end

/-- Two programs whose brackets match, on a machine whose output can be flushed. If the first one
succeeds, the concatenation ends exactly when the second one ends afterwards on the same machine;
the results are the same, and nothing else differs but the one flush between the two. If the first
one fails, so does the concatenation, with the same failure and in the same state. If the first one
goes on forever, so does the concatenation. -/
theorem ends_append {first second : List Instruction} (balanced : Loops.Balanced first)
    (balanced' : Loops.Balanced second) {machine : Machine} (succeeds : machine.FlushSucceeds) :
    (∀ middle, machine.Ends first (.ok ()) middle →
      ((∃ result after, machine.Ends (first ++ second) result after) ↔
        ∃ result after, middle.Ends second result after) ∧
      ∀ result after result' after', machine.Ends (first ++ second) result after →
        middle.Ends second result' after' → result = result' ∧ OneFlushLess after after') ∧
    (∀ e after, machine.Ends first (.error e) after →
      machine.Ends (first ++ second) (.error e) after) ∧
    ((¬ ∃ result after, machine.Ends first result after) →
      ¬ ∃ result after, machine.Ends (first ++ second) result after) := by
  obtain ⟨first, rfl⟩ := Loops.exists_tree_of_balanced balanced
  obtain ⟨second, rfl⟩ := Loops.exists_tree_of_balanced balanced'
  rw [← LoopTree.instructions_append]
  refine ⟨fun middle succeeded => ⟨⟨?_, ?_⟩, ?_⟩, ?_, mt exists_ends_of_exists_ends_append⟩
  · rintro ⟨result, after, ended⟩
    obtain ⟨after', ends, -⟩ := exists_ends_of_ends_append succeeds succeeded ended
    exact ⟨result, after', ends⟩
  · rintro ⟨result, after, ended⟩
    obtain ⟨after', ends, -⟩ := exists_ends_append_of_ends succeeds succeeded ended
    exact ⟨result, after', ends⟩
  · intro result after result' after' ended ended'
    obtain ⟨found, ends, less⟩ := exists_ends_of_ends_append succeeds succeeded ended
    obtain ⟨rfl, rfl⟩ := ends_unique ends ended'
    exact ⟨rfl, less⟩
  · intro e after failed
    exact ends_append_of_error succeeds failed

/-- The theorem for a loop that counts down from the byte that is read, and a program that starts on
the cell that the loop leaves. -/
theorem ends_append_countdown :
    let first : List Instruction := [.input ⟨0, 0⟩, .loopStart ⟨1, 1⟩, .output ⟨2, 2⟩,
      .act .sub 1 ⟨3, 3⟩, .loopEnd ⟨4, 4⟩]
    let second : List Instruction := [.act .sub 1 ⟨0, 0⟩, .output ⟨1, 1⟩]
    let machine : Machine := ⟨.blank 1 Nat.one_pos, some (.ofBytes [2]),
      some { nextFlushes := [none] }⟩
    (Loops.Balanced first ∧ Loops.Balanced second ∧ machine.FlushSucceeds) ∧
    ∃ after, machine.Ends (first ++ second) (.ok ()) after ∧
      OneFlushLess after ⟨(Tape.blank 1 Nat.one_pos).set 255, some ⟨[], 1⟩,
        some { written := #[2, 1, 255], flushes := 2 }⟩ := by
  intro first second machine
  have balanced : Loops.Balanced first := by decide
  have balanced' : Loops.Balanced second := by decide
  have succeeds : machine.FlushSucceeds := by
    rintro _ ⟨⟩
    exact ⟨by decide, rfl⟩
  have succeeded : machine.Ends first (.ok ())
      ⟨.blank 1 Nat.one_pos, some ⟨[], 1⟩, some { written := #[2, 1], flushes := 1 }⟩ :=
    ⟨9, by subst machine first; rfl⟩
  have goesOn : Ends
      ⟨.blank 1 Nat.one_pos, some ⟨[], 1⟩, some { written := #[2, 1], flushes := 1 }⟩ second
      (.ok ())
      ⟨(Tape.blank 1 Nat.one_pos).set 255, some ⟨[], 1⟩,
        some { written := #[2, 1, 255], flushes := 2 }⟩ :=
    ⟨3, by subst second; rfl⟩
  obtain ⟨alike, same⟩ := (ends_append balanced balanced' succeeds).1 _ succeeded
  obtain ⟨result, after, ended⟩ := alike.mpr ⟨_, _, goesOn⟩
  obtain ⟨rfl, less⟩ := same _ _ _ _ ended goesOn
  exact ⟨⟨balanced, balanced', succeeds⟩, after, ended, less⟩

end Machine

end Brainfuck
