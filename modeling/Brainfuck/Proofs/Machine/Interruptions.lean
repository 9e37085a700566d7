import Brainfuck.Proofs.Machine.Lockstep

/-!
Interruptions leave no trace. A call that was interrupted is made again, so a stream answers as if
the interruptions among its replies had been deleted, and keeps the same replies for later but for
interruptions. Machines from which deleting all interruptions leaves the same machine are therefore
in lockstep (`interruptions_invisible`), wherever the interruptions stand and however many they are.
-/

namespace Brainfuck

/-! ### Streams -/

namespace InputStream

/-- The stream without the interruptions among its replies. -/
def uninterrupted (stream : InputStream) : InputStream :=
  { stream with pending := stream.pending.filter (· ≠ .interrupted) }

theorem nextReply_filter (replies : List ReadReply) :
    nextReply (replies.filter (· ≠ .interrupted)) =
      ((nextReply replies).1, (nextReply replies).2.filter (· ≠ .interrupted)) := by
  induction replies with
  | nil => rfl
  | cons reply rest ih =>
      cases reply with
      | interrupted => exact ih
      | _ => rfl

theorem read_uninterrupted (stream : InputStream) :
    stream.uninterrupted.read = (stream.read.1, stream.read.2.uninterrupted) := by
  obtain ⟨pending, bytesRead⟩ := stream
  have next := nextReply_filter pending
  rcases reply : nextReply pending with ⟨_ | _ | value, rest⟩ <;> rw [reply] at next <;>
    simp only [uninterrupted, read, next, reply]

end InputStream

namespace OutputStream

/-- The stream without the interruptions among its replies. -/
def uninterrupted (stream : OutputStream) : OutputStream :=
  { stream with pending := stream.pending.filter (· ≠ .interrupted) }

theorem nextReply_filter (replies : List WriteReply) :
    nextReply (replies.filter (· ≠ .interrupted)) =
      ((nextReply replies).1, (nextReply replies).2.filter (· ≠ .interrupted)) := by
  induction replies with
  | nil => rfl
  | cons reply rest ih =>
      cases reply with
      | interrupted => exact ih
      | _ => rfl

theorem write_uninterrupted (value : UInt8) (stream : OutputStream) :
    stream.uninterrupted.write value =
      ((stream.write value).1, (stream.write value).2.uninterrupted) := by
  have next := nextReply_filter stream.pending
  rcases reply : nextReply stream.pending with ⟨_ | _, rest⟩ <;> rw [reply] at next <;>
    simp only [uninterrupted, write, next, reply]

end OutputStream

/-! ### Machines -/

namespace Machine

/-- The machine without the interruptions among the replies of its streams. -/
def uninterrupted (machine : Machine) : Machine where
  tape := machine.tape
  input := machine.input.map InputStream.uninterrupted
  output := machine.output.map OutputStream.uninterrupted

theorem uninterrupted_uninterrupted (machine : Machine) :
    machine.uninterrupted.uninterrupted = machine.uninterrupted := by
  obtain ⟨tape, _ | input, _ | output⟩ := machine <;>
    simp [uninterrupted, InputStream.uninterrupted, OutputStream.uninterrupted]

theorem readCell_uninterrupted (machine : Machine) :
    machine.uninterrupted.readCell = (machine.readCell.1, machine.readCell.2.uninterrupted) := by
  obtain ⟨tape, _ | input, output⟩ := machine
  · rfl
  · have read := input.read_uninterrupted
    rcases answer : input.read with ⟨_ | _ | value, rest⟩ <;> rw [answer] at read <;>
      simp only [uninterrupted, readCell, Option.map_some, read, answer]

theorem writeCell_uninterrupted (machine : Machine) :
    machine.uninterrupted.writeCell =
      (machine.writeCell.1, machine.writeCell.2.uninterrupted) := by
  obtain ⟨tape, input, _ | output⟩ := machine
  · rfl
  · simp only [uninterrupted, writeCell, Option.map_some, output.write_uninterrupted]

/-- Deleting interruptions commutes with every instruction. -/
theorem perform_uninterrupted (instruction : Instruction) (machine : Machine) :
    machine.uninterrupted.perform instruction =
      ((machine.perform instruction).1, (machine.perform instruction).2.uninterrupted) := by
  cases instruction with
  | input span => exact machine.readCell_uninterrupted
  | output span => exact machine.writeCell_uninterrupted
  | _ => rfl

theorem flush_uninterrupted (machine : Machine) :
    machine.uninterrupted.flush = (machine.flush.1, machine.flush.2.uninterrupted) := by
  obtain ⟨tape, input, _ | output⟩ := machine <;> rfl

/-- Machines that differ in interruptions alone go through every program in step. -/
theorem lockstep_uninterrupted : Lockstep fun a b => a.uninterrupted = b.uninterrupted where
  value := by
    intro a b same
    have tape := congrArg Machine.tape same
    exact congrArg Tape.value tape
  perform := by
    intro a b instruction same
    have performed := perform_uninterrupted instruction a
    rw [same, perform_uninterrupted instruction b, Prod.mk.injEq] at performed
    exact ⟨performed.1.symm, performed.2.symm⟩
  flush := by
    intro a b same
    have flushed := flush_uninterrupted a
    rw [same, flush_uninterrupted b, Prod.mk.injEq] at flushed
    exact ⟨flushed.1.symm, flushed.2.symm⟩

/-- The same tape down to the stored cells, and streams that have come equally far: the same number
of bytes read, the same bytes written and the same number of flushes. Streams that are absent are
absent in both. -/
structure SameEffects (a b : Machine) : Prop where
  tape : a.tape = b.tape
  bytesRead : a.input.map (·.bytesRead) = b.input.map (·.bytesRead)
  written : a.output.map (·.written) = b.output.map (·.written)
  flushes : a.output.map (·.flushes) = b.output.map (·.flushes)

theorem sameEffects_uninterrupted (machine : Machine) :
    SameEffects machine machine.uninterrupted := by
  obtain ⟨tape, _ | input, _ | output⟩ := machine <;> exact ⟨rfl, rfl, rfl, rfl⟩

theorem sameEffects_of_uninterrupted {a b : Machine} (same : a.uninterrupted = b.uninterrupted) :
    SameEffects a b := by
  have left := sameEffects_uninterrupted a
  have right := sameEffects_uninterrupted b
  rw [same] at left
  exact ⟨left.tape.trans right.tape.symm, left.bytesRead.trans right.bytesRead.symm,
    left.written.trans right.written.symm, left.flushes.trans right.flushes.symm⟩

/-- Programs that are run one after another end alike without the interruptions of a machine, and
on every other machine that differs in interruptions alone: with the same results one by one, the
same tapes, and the same bytes read and written. Since the programs are arbitrary, this also holds
at the end of every one of them. -/
theorem interruptions_invisible (machine : Machine) (programs : List (List Instruction)) :
    AgreeInTurn SameEffects machine machine.uninterrupted programs ∧
      ∀ other : Machine, other.uninterrupted = machine.uninterrupted →
        AgreeInTurn SameEffects machine other programs := by
  constructor
  · have deleted := machine.uninterrupted_uninterrupted
    exact lockstep_uninterrupted.agreeInTurn deleted.symm deleted sameEffects_of_uninterrupted
      programs
  · intro other same
    exact lockstep_uninterrupted.agreeInTurn same.symm same sameEffects_of_uninterrupted programs

/-- The theorem for an echo after a program that fails to write, with interruptions inserted before
and between the replies of both streams. -/
theorem interruptions_invisible_echo :
    let input : InputStream := ⟨[.byte 7, .byte 8], 0⟩
    let input' : InputStream := ⟨[.interrupted, .interrupted, .byte 7, .interrupted, .byte 8], 0⟩
    let output : OutputStream := { pending := [.nothingWritten, .accepted] }
    let output' : OutputStream :=
      { pending := [.interrupted, .nothingWritten, .interrupted, .accepted, .interrupted] }
    let programs : List (List Instruction) :=
      [[.input ⟨0, 0⟩, .output ⟨1, 1⟩], [.input ⟨0, 0⟩, .output ⟨1, 1⟩]]
    let machine : Machine := ⟨.blank 1 Nat.one_pos, some input, some output⟩
    let other : Machine := ⟨.blank 1 Nat.one_pos, some input', some output'⟩
    other.uninterrupted = machine.uninterrupted ∧
      AgreeInTurn SameEffects machine other programs :=
  ⟨rfl, (interruptions_invisible _ _).2 _ rfl⟩

end Machine

end Brainfuck
