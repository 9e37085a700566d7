import Brainfuck.Proofs.Emission.Listing
import Brainfuck.Proofs.Machine.IdleStreams

/-!
Streams that never fail. On such streams nothing that a program does can fail, and they stay as they
are in this respect (`Healthy.perform`, `Healthy.execution`). So when a program comes to its end on
them, only its brackets can have been at fault, and its result is the verdict on these
(`Healthy.result_eq_check`).
-/

namespace Brainfuck

namespace InputStream

/-- No read fails. -/
def NeverFails (stream : InputStream) : Prop :=
  ∀ reply ∈ stream.pending, ∀ why, reply ≠ .failed why

theorem neverFails_ofBytes (bytes : List UInt8) : (ofBytes bytes).NeverFails := by
  intro reply member why
  obtain ⟨value, -, rfl⟩ := List.mem_map.mp member
  exact nofun

theorem exists_nextReply {replies : List ReadReply}
    (never : ∀ reply ∈ replies, ∀ why, reply ≠ .failed why) :
    ∃ value rest, nextReply replies = (.ok value, rest) ∧
      ∀ reply ∈ rest, ∀ why, reply ≠ .failed why := by
  induction replies with
  | nil => exact ⟨none, [], rfl, never⟩
  | cons reply rest ih =>
      have others := fun r member => never r (List.mem_cons_of_mem _ member)
      cases reply with
      | byte value => exact ⟨some value, rest, rfl, others⟩
      | endOfInput => exact ⟨none, rest, rfl, others⟩
      | interrupted => exact ih others
      | failed why => exact absurd rfl (never _ List.mem_cons_self why)

theorem NeverFails.read {stream : InputStream} (never : stream.NeverFails) :
    ∃ value rest, stream.read = (.ok value, rest) ∧ rest.NeverFails := by
  obtain ⟨pending, bytesRead⟩ := stream
  obtain ⟨value, rest, next, others⟩ := exists_nextReply never
  cases value with
  | none => exact ⟨none, ⟨rest, bytesRead⟩, by simp only [InputStream.read, next], others⟩
  | some value =>
      exact ⟨some value, ⟨rest, bytesRead + 1⟩, by simp only [InputStream.read, next], others⟩

end InputStream

namespace Machine

/-- The machine's streams, if it has them, never fail. -/
structure Healthy (machine : Machine) : Prop where
  input : ∀ stream, machine.input = some stream → stream.NeverFails
  output : IdleOutput machine.output

variable {machine after : Machine} {program : List Instruction} {result : Except Error Unit}

theorem Healthy.readCell (healthy : machine.Healthy) :
    ∃ after, machine.readCell = (.ok (), after) ∧ after.Healthy := by
  obtain ⟨tape, input, output⟩ := machine
  cases input with
  | none => exact ⟨_, rfl, healthy⟩
  | some stream =>
      obtain ⟨value, rest, answer, still⟩ := (healthy.input stream rfl).read
      have kept (tape : Tape) : Healthy ⟨tape, some rest, output⟩ :=
        ⟨by rintro _ ⟨⟩; exact still, healthy.output⟩
      cases value with
      | none => exact ⟨_, by simp only [Machine.readCell, answer], kept tape⟩
      | some value => exact ⟨_, by simp only [Machine.readCell, answer], kept (tape.set value)⟩

/-- On streams that never fail an instruction succeeds, and leaves such streams behind. -/
theorem Healthy.perform (healthy : machine.Healthy) (instruction : Instruction) :
    ∃ after, machine.perform instruction = (.ok (), after) ∧ after.Healthy := by
  cases instruction with
  | act action count span => exact ⟨_, rfl, healthy.input, healthy.output⟩
  | input span => exact healthy.readCell
  | output span =>
      obtain ⟨rest, written, still⟩ := healthy.output.writeCell machine.tape machine.input
      exact ⟨_, written, healthy.input, still⟩
  | loopStart span => exact ⟨_, rfl, healthy⟩
  | loopEnd span => exact ⟨_, rfl, healthy⟩

theorem Healthy.effect {command : Command} (healthy : machine.Healthy)
    (effect : command.Effect machine result after) : result = .ok () ∧ after.Healthy := by
  obtain ⟨next, performed, still⟩ := healthy.perform command.instruction
  cases performed.symm.trans (Command.effect_iff.mp effect)
  exact ⟨rfl, still⟩

/-- On streams that never fail an execution succeeds, and leaves such streams behind. -/
theorem Healthy.execution {tree : LoopTree} (healthy : machine.Healthy)
    (execution : tree.Execution machine result after) : result = .ok () ∧ after.Healthy := by
  induction execution with
  | nil => exact ⟨rfl, healthy⟩
  | command effect tail ih => exact ih (healthy.effect effect).2
  | failure effect => exact healthy.effect effect
  | leave zero tail ih => exact ih healthy
  | iterate nonzero pass again ihPass ihAgain => exact ihAgain (ihPass healthy).2
  | abort nonzero pass ih => exact ih healthy

theorem Healthy.runs {tree : LoopTree} (healthy : machine.Healthy)
    (runs : tree.Runs machine result after) : result = .ok () := by
  rcases LoopTree.runs_iff.mp runs with ⟨last, execution, flush⟩ | ⟨e, rfl, execution⟩
  · have still := (healthy.execution execution).2
    obtain ⟨rest, flushed, -⟩ := still.output.flush last.tape last.input
    cases flushed.symm.trans flush
    rfl
  · exact (healthy.execution execution).1

/-- On streams that never fail, a program that comes to its end has the verdict on its brackets for
its result. -/
theorem Healthy.result_eq_check (healthy : machine.Healthy)
    (ended : machine.Ends program result after) : result = Loops.check program := by
  cases verdict : Loops.check program with
  | error e => exact ((ends_of_check_error verdict).mp ended).1
  | ok done =>
      obtain ⟨tree, rfl⟩ := Loops.check_eq_ok_iff.mp verdict
      exact healthy.runs (ends_instructions_iff.mp ended)

end Machine

end Brainfuck
