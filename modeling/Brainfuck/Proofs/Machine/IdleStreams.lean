import Brainfuck.Proofs.Machine.FailingOutput
import Brainfuck.Proofs.Machine.UnreadInput

/-!
Idle streams. An input that is always at its end changes no cell, and an output that never fails
stops no run. Machines that differ in such an input alone, or in such an output alone, are therefore
in lockstep, and it makes no difference whether the stream is there at all (`missing_stream_idle`).
In particular nothing that a program writes finds its way back into its execution.
-/

namespace Brainfuck

/-! ### Inputs at their end -/

namespace InputStream

/-- Every read finds the end of the input, if it is not interrupted and made again. -/
def AlwaysAtEnd (stream : InputStream) : Prop :=
  ∀ reply ∈ stream.pending, reply = .endOfInput ∨ reply = .interrupted

theorem nextReply_of_atEnd {replies : List ReadReply}
    (atEnd : ∀ reply ∈ replies, reply = .endOfInput ∨ reply = .interrupted) :
    ∃ rest, nextReply replies = (.ok none, rest) ∧
      ∀ reply ∈ rest, reply = .endOfInput ∨ reply = .interrupted := by
  induction replies with
  | nil => exact ⟨[], rfl, atEnd⟩
  | cons reply rest ih =>
      have others := fun r member => atEnd r (List.mem_cons_of_mem _ member)
      rcases atEnd reply List.mem_cons_self with rfl | rfl
      · exact ⟨rest, rfl, others⟩
      · exact ih others

theorem AlwaysAtEnd.read {stream : InputStream} (atEnd : stream.AlwaysAtEnd) :
    ∃ rest, stream.read = (.ok none, { stream with pending := rest }) ∧
      AlwaysAtEnd { stream with pending := rest } := by
  obtain ⟨pending, bytesRead⟩ := stream
  obtain ⟨rest, next, others⟩ := nextReply_of_atEnd atEnd
  exact ⟨rest, by simp only [InputStream.read, next], others⟩

end InputStream

namespace Machine

/-- There is no input, or it is always at its end. -/
def IdleInput (input : Option InputStream) : Prop :=
  ∀ stream, input = some stream → stream.AlwaysAtEnd

theorem idleInput_none : IdleInput none :=
  nofun

theorem idleInput_some {stream : InputStream} (atEnd : stream.AlwaysAtEnd) :
    IdleInput (some stream) := by
  rintro _ ⟨⟩
  exact atEnd

theorem IdleInput.readCell {input : Option InputStream} (idle : IdleInput input) (tape : Tape)
    (output : Option OutputStream) :
    ∃ input', readCell ⟨tape, input, output⟩ = (.ok (), ⟨tape, input', output⟩) ∧
      IdleInput input' := by
  cases input with
  | none => exact ⟨none, rfl, idleInput_none⟩
  | some stream =>
      obtain ⟨rest, answer, still⟩ := (idle stream rfl).read
      exact ⟨_, by simp only [Machine.readCell, answer], idleInput_some still⟩

/-- Two machines that differ in their inputs alone. -/
structure SameButInput (a b : Machine) : Prop where
  tape : a.tape = b.tape
  output : a.output = b.output

/-- Two machines that differ in idle inputs alone. -/
structure DifferInIdleInput (a b : Machine) : Prop extends SameButInput a b where
  idle : IdleInput a.input
  idle' : IdleInput b.input

theorem lockstep_differInIdleInput : Lockstep DifferInIdleInput where
  value related := congrArg Tape.value related.tape
  perform := by
    rintro ⟨tape, input, output⟩ ⟨_, input', _⟩ instruction ⟨⟨rfl, rfl⟩, idle, idle'⟩
    by_cases reads : ∃ span, instruction = .input span
    · obtain ⟨span, rfl⟩ := reads
      obtain ⟨rest, read, still⟩ := idle.readCell tape output
      obtain ⟨rest', read', still'⟩ := idle'.readCell tape output
      simp only [Machine.perform, read, read']
      exact ⟨trivial, ⟨rfl, rfl⟩, still, still'⟩
    · obtain ⟨result, tape', output', performed⟩ :=
        exists_perform_of_ne_input (not_exists.mp reads) tape output
      rw [performed, performed]
      exact ⟨rfl, ⟨rfl, rfl⟩, idle, idle'⟩
  flush := by
    rintro ⟨tape, input, output⟩ ⟨_, input', _⟩ ⟨⟨rfl, rfl⟩, idle, idle'⟩
    obtain ⟨result, output', flushed⟩ := exists_flush tape output
    rw [flushed, flushed]
    exact ⟨rfl, ⟨rfl, rfl⟩, idle, idle'⟩

/-! ### Outputs that never fail -/

/-- There is no output, or it never fails. -/
def IdleOutput (output : Option OutputStream) : Prop :=
  ∀ stream, output = some stream → stream.NeverFails

theorem idleOutput_none : IdleOutput none :=
  nofun

theorem idleOutput_some {stream : OutputStream} (never : stream.NeverFails) :
    IdleOutput (some stream) := by
  rintro _ ⟨⟩
  exact never

theorem IdleOutput.writeCell {output : Option OutputStream} (idle : IdleOutput output)
    (tape : Tape) (input : Option InputStream) :
    ∃ output', writeCell ⟨tape, input, output⟩ = (.ok (), ⟨tape, input, output'⟩) ∧
      IdleOutput output' := by
  cases output with
  | none => exact ⟨none, rfl, idleOutput_none⟩
  | some stream =>
      obtain ⟨rest, accepted, still⟩ := (idle stream rfl).write tape.value
      refine ⟨_, ?_, idleOutput_some still⟩
      simp only [Machine.writeCell, accepted]
      rfl

theorem IdleOutput.flush {output : Option OutputStream} (idle : IdleOutput output)
    (tape : Tape) (input : Option InputStream) :
    ∃ output', flush ⟨tape, input, output⟩ = (.ok (), ⟨tape, input, output'⟩) ∧
      IdleOutput output' := by
  cases output with
  | none => exact ⟨none, rfl, idleOutput_none⟩
  | some stream =>
      obtain ⟨flushed, still⟩ := (idle stream rfl).flushes.flush
      refine ⟨some stream.flush.2, ?_, idleOutput_some ⟨(idle stream rfl).accepts, still⟩⟩
      simp only [Machine.flush, flushed]
      rfl

/-- Two machines that differ in their outputs alone. -/
structure SameButOutput (a b : Machine) : Prop where
  tape : a.tape = b.tape
  input : a.input = b.input

/-- Two machines that differ in idle outputs alone. -/
structure DifferInIdleOutput (a b : Machine) : Prop extends SameButOutput a b where
  idle : IdleOutput a.output
  idle' : IdleOutput b.output

theorem lockstep_differInIdleOutput : Lockstep DifferInIdleOutput where
  value related := congrArg Tape.value related.tape
  perform := by
    rintro ⟨tape, input, output⟩ ⟨_, _, output'⟩ instruction ⟨⟨rfl, rfl⟩, idle, idle'⟩
    by_cases writes : ∃ span, instruction = .output span
    · obtain ⟨span, rfl⟩ := writes
      obtain ⟨rest, written, still⟩ := idle.writeCell tape input
      obtain ⟨rest', written', still'⟩ := idle'.writeCell tape input
      simp only [Machine.perform, written, written']
      exact ⟨trivial, ⟨rfl, rfl⟩, still, still'⟩
    · obtain ⟨result, tape', input', performed⟩ :=
        exists_perform_of_ne_output (not_exists.mp writes) tape input
      rw [performed, performed]
      exact ⟨rfl, ⟨rfl, rfl⟩, idle, idle'⟩
  flush := by
    rintro ⟨tape, input, output⟩ ⟨_, _, output'⟩ ⟨⟨rfl, rfl⟩, idle, idle'⟩
    obtain ⟨rest, flushed, still⟩ := idle.flush tape input
    obtain ⟨rest', flushed', still'⟩ := idle'.flush tape input
    rw [flushed, flushed']
    exact ⟨rfl, ⟨rfl, rfl⟩, still, still'⟩

/-! ### Streams that are not there -/

theorem endAlike_of_idleInput {input input' : Option InputStream} (idle : IdleInput input)
    (idle' : IdleInput input') (tape : Tape) (output : Option OutputStream)
    (program : List Instruction) :
    EndAlike SameButInput ⟨tape, input, output⟩ ⟨tape, input', output⟩ program := by
  have related {i i'} (idle : IdleInput i) (idle' : IdleInput i') :
      DifferInIdleInput ⟨tape, i, output⟩ ⟨tape, i', output⟩ := ⟨⟨rfl, rfl⟩, idle, idle'⟩
  exact lockstep_differInIdleInput.endAlike (related idle idle') (related idle' idle)
    DifferInIdleInput.toSameButInput program

theorem endAlike_of_idleOutput {output output' : Option OutputStream} (idle : IdleOutput output)
    (idle' : IdleOutput output') (tape : Tape) (input : Option InputStream)
    (program : List Instruction) :
    EndAlike SameButOutput ⟨tape, input, output⟩ ⟨tape, input, output'⟩ program := by
  have related {o o'} (idle : IdleOutput o) (idle' : IdleOutput o') :
      DifferInIdleOutput ⟨tape, input, o⟩ ⟨tape, input, o'⟩ := ⟨⟨rfl, rfl⟩, idle, idle'⟩
  exact lockstep_differInIdleOutput.endAlike (related idle idle') (related idle' idle)
    DifferInIdleOutput.toSameButOutput program

/-- A program ends without an input as it does with one that is always at its end, with the same
result, the same tape and the same output. It ends without an output as it does with one that never
fails, with the same result, the same tape and the same input; so it also ends alike with any two
such outputs, whatever has been written to them. -/
theorem missing_stream_idle (tape : Tape) (program : List Instruction) :
    (∀ (input : InputStream) (output : Option OutputStream), input.AlwaysAtEnd →
      EndAlike SameButInput ⟨tape, none, output⟩ ⟨tape, some input, output⟩ program) ∧
    (∀ (input : Option InputStream) (output : OutputStream), output.NeverFails →
      EndAlike SameButOutput ⟨tape, input, none⟩ ⟨tape, input, some output⟩ program) ∧
    ∀ (input : Option InputStream) (first second : OutputStream), first.NeverFails →
      second.NeverFails →
      EndAlike SameButOutput ⟨tape, input, some first⟩ ⟨tape, input, some second⟩ program := by
  refine ⟨?_, ?_, ?_⟩
  · intro input output atEnd
    exact endAlike_of_idleInput idleInput_none (idleInput_some atEnd) tape output program
  · intro input output never
    exact endAlike_of_idleOutput idleOutput_none (idleOutput_some never) tape input program
  · intro input first second never never'
    exact endAlike_of_idleOutput (idleOutput_some never) (idleOutput_some never') tape input program

/-- The theorem for a loop that reads and writes on every pass, with an input that has some ends
still to report and an output that was written to before. -/
theorem missing_stream_idle_loop :
    let program : List Instruction := [.act .add 2 ⟨0, 1⟩, .loopStart ⟨2, 2⟩, .input ⟨3, 3⟩,
      .output ⟨4, 4⟩, .act .sub 1 ⟨5, 5⟩, .loopEnd ⟨6, 6⟩]
    let tape := Tape.blank 1 Nat.one_pos
    let input : InputStream := ⟨[.endOfInput, .interrupted, .endOfInput], 0⟩
    let output : OutputStream := { pending := [.interrupted, .accepted], written := #[9] }
    (input.AlwaysAtEnd ∧ output.NeverFails) ∧
      EndAlike SameButInput ⟨tape, none, some output⟩ ⟨tape, some input, some output⟩ program ∧
      EndAlike SameButOutput ⟨tape, some input, none⟩ ⟨tape, some input, some output⟩ program ∧
      EndAlike SameButOutput ⟨tape, none, some {}⟩ ⟨tape, none, some output⟩ program := by
  intro program tape input output
  have atEnd : input.AlwaysAtEnd := by
    rw [InputStream.AlwaysAtEnd]
    decide
  have never : output.NeverFails := ⟨by decide, nofun, rfl⟩
  obtain ⟨missingInput, missingOutput, twoOutputs⟩ := missing_stream_idle tape program
  exact ⟨⟨atEnd, never⟩, missingInput _ _ atEnd, missingOutput _ _ never,
    twoOutputs _ _ _ ⟨nofun, nofun, rfl⟩ never⟩

end Machine

end Brainfuck
