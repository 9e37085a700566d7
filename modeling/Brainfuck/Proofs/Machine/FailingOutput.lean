import Brainfuck.Proofs.Machine.Lockstep

/-!
Outputs that fail. On an output that accepts some bytes and then fails, a run is the run on an
output that never fails, cut off where it is about to write the first byte that is not accepted: it
has the tape and the input of that moment, the bytes before it are written, and nothing is flushed.
If only the flush fails, the run is the same up to the flush (`failing_output`).
-/

namespace Brainfuck

/-! ### Outputs -/

namespace OutputStream

/-- Every flush succeeds. -/
structure AlwaysFlushes (stream : OutputStream) : Prop where
  next : ∀ failure ∈ stream.nextFlushes, failure = none
  later : stream.flushFailure = none

/-- Every byte is accepted in the end, and every flush succeeds. -/
structure NeverFails (stream : OutputStream) : Prop where
  accepts : ∀ reply ∈ stream.pending, reply = .accepted ∨ reply = .interrupted
  flushes : stream.AlwaysFlushes

/-- Replies that accept a number of bytes and fail to take the next one, with the reason and the
replies after that. Interruptions may stand anywhere among them. -/
inductive FailsAfter : Nat → StreamFailure → List WriteReply → List WriteReply → Prop where
  | nothingWritten {later} : FailsAfter 0 .nothingWritten later (.nothingWritten :: later)
  | failed {why later} : FailsAfter 0 why later (.failed why :: later)
  | interrupted {count why later pending} (others : FailsAfter count why later pending) :
      FailsAfter count why later (.interrupted :: pending)
  | accepted {count why later pending} (others : FailsAfter count why later pending) :
      FailsAfter (count + 1) why later (.accepted :: pending)

theorem nextReply_of_accepts {replies : List WriteReply}
    (accepts : ∀ reply ∈ replies, reply = .accepted ∨ reply = .interrupted) :
    ∃ rest, nextReply replies = (.ok (), rest) ∧
      ∀ reply ∈ rest, reply = .accepted ∨ reply = .interrupted := by
  induction replies with
  | nil => exact ⟨[], rfl, accepts⟩
  | cons reply rest ih =>
      have others := fun r member => accepts r (List.mem_cons_of_mem _ member)
      rcases accepts reply List.mem_cons_self with rfl | rfl
      · exact ⟨rest, rfl, others⟩
      · exact ih others

theorem FailsAfter.nextReply_zero {why : StreamFailure} {later pending : List WriteReply}
    (fails : FailsAfter 0 why later pending) : nextReply pending = (.error why, later) := by
  generalize zero : 0 = count at fails
  induction fails with
  | nothingWritten => rfl
  | failed => rfl
  | interrupted others ih => exact ih zero
  | accepted others ih => cases zero

theorem FailsAfter.nextReply_succ {count : Nat} {why : StreamFailure}
    {later pending : List WriteReply} (fails : FailsAfter (count + 1) why later pending) :
    ∃ rest, nextReply pending = (.ok (), rest) ∧ FailsAfter count why later rest := by
  generalize more : count + 1 = total at fails
  induction fails with
  | nothingWritten => cases more
  | failed => cases more
  | interrupted others ih => exact ih more
  | accepted others ih =>
      cases more
      exact ⟨_, rfl, others⟩

theorem NeverFails.write {stream : OutputStream} (never : stream.NeverFails) (value : UInt8) :
    ∃ rest, stream.write value =
        (.ok (), { stream with pending := rest, written := stream.written.push value }) ∧
      NeverFails { stream with pending := rest, written := stream.written.push value } := by
  obtain ⟨rest, next, accepts⟩ := nextReply_of_accepts never.accepts
  exact ⟨rest, by simp only [OutputStream.write, next], accepts, never.flushes.next,
    never.flushes.later⟩

theorem AlwaysFlushes.flush {stream : OutputStream} (always : stream.AlwaysFlushes) :
    stream.flush = (.ok (), { stream with
        nextFlushes := stream.nextFlushes.tail
        flushes := stream.flushes + 1 }) ∧
      AlwaysFlushes stream.flush.2 := by
  have now : stream.nextFlushes.headD stream.flushFailure = none := by
    cases flushes : stream.nextFlushes with
    | nil => exact always.later
    | cons failure rest => exact always.next failure (flushes ▸ List.mem_cons_self)
  refine ⟨?_, fun failure member => always.next failure (List.mem_of_mem_tail member),
    always.later⟩
  simp only [OutputStream.flush, now]

theorem FailsAfter.write_zero {why : StreamFailure} {later pending : List WriteReply}
    (fails : FailsAfter 0 why later pending) (value : UInt8) (stream : OutputStream) :
    write value { stream with pending } = (.error why, { stream with pending := later }) := by
  simp only [write, fails.nextReply_zero]

theorem FailsAfter.write_succ {count : Nat} {why : StreamFailure}
    {later pending : List WriteReply} (fails : FailsAfter (count + 1) why later pending)
    (value : UInt8) (stream : OutputStream) :
    ∃ rest, write value { stream with pending } =
        (.ok (), { stream with pending := rest, written := stream.written.push value }) ∧
      FailsAfter count why later rest := by
  obtain ⟨rest, next, others⟩ := fails.nextReply_succ
  exact ⟨rest, by simp only [write, next], others⟩

/-- What a stream becomes while bytes are written to it: it accepts bytes behind the others, and is
not flushed. -/
structure Extends (before after : OutputStream) : Prop where
  written : before.written.toList <+: after.written.toList
  nextFlushes : after.nextFlushes = before.nextFlushes
  flushFailure : after.flushFailure = before.flushFailure
  flushes : after.flushes = before.flushes

theorem Extends.refl (stream : OutputStream) : stream.Extends stream :=
  ⟨List.prefix_rfl, rfl, rfl, rfl⟩

theorem Extends.trans {a b c : OutputStream} (first : a.Extends b) (second : b.Extends c) :
    a.Extends c :=
  ⟨first.written.trans second.written, second.nextFlushes.trans first.nextFlushes,
    second.flushFailure.trans first.flushFailure, second.flushes.trans first.flushes⟩

theorem Extends.alwaysFlushes {a b : OutputStream} (extends_ : a.Extends b)
    (always : a.AlwaysFlushes) : b.AlwaysFlushes := by
  refine ⟨?_, extends_.flushFailure.trans always.later⟩
  rw [extends_.nextFlushes]
  exact always.next

theorem extends_write (value : UInt8) (stream : OutputStream) :
    stream.Extends (stream.write value).2 := by
  rcases reply : nextReply stream.pending with ⟨_ | _, rest⟩ <;> simp only [write, reply]
  · exact ⟨List.prefix_rfl, rfl, rfl, rfl⟩
  · exact ⟨⟨[value], Array.toList_push.symm⟩, rfl, rfl, rfl⟩

theorem write_ok {stream rest : OutputStream} {value : UInt8}
    (accepted : stream.write value = (.ok (), rest)) :
    rest.written.toList = stream.written.toList ++ [value] := by
  rcases reply : nextReply stream.pending with ⟨_ | _, later⟩ <;>
    simp only [write, reply] at accepted <;> cases accepted
  exact Array.toList_push

/-- The stream with other replies to its flushes. -/
def withFlushes (next : List (Option StreamFailure)) (later : Option StreamFailure)
    (stream : OutputStream) : OutputStream :=
  { stream with nextFlushes := next, flushFailure := later }

/-- Writing does not look at what a flush will run into. -/
theorem write_withFlushes (value : UInt8) (next : List (Option StreamFailure))
    (later : Option StreamFailure) (stream : OutputStream) :
    write value (stream.withFlushes next later) =
      ((stream.write value).1, (stream.write value).2.withFlushes next later) := by
  rcases reply : nextReply stream.pending with ⟨_ | _, rest⟩ <;>
    simp only [write, withFlushes, reply]

end OutputStream

open OutputStream (NeverFails FailsAfter)

/-! ### Outputs in a run -/

namespace Machine

/-- An instruction that writes nothing does the same whatever the output is, and leaves the output
alone. -/
theorem exists_perform_of_ne_output {instruction : Instruction}
    (silent : ∀ span, instruction ≠ .output span) (tape : Tape) (input : Option InputStream) :
    ∃ result tape' input', ∀ output,
      perform instruction ⟨tape, input, output⟩ = (result, ⟨tape', input', output⟩) := by
  cases instruction with
  | act action count span => exact ⟨_, _, _, fun _ => rfl⟩
  | output span => exact absurd rfl (silent span)
  | input span =>
      cases input with
      | none => exact ⟨_, _, _, fun _ => rfl⟩
      | some input =>
          rcases answer : input.read with ⟨_ | _ | value, rest⟩ <;>
            simp only [perform, readCell, answer]
          · exact ⟨_, _, _, fun _ => rfl⟩
          · exact ⟨_, _, _, fun _ => rfl⟩
          · exact ⟨_, _, _, fun _ => rfl⟩
  | loopStart span => exact ⟨_, _, _, fun _ => rfl⟩
  | loopEnd span => exact ⟨_, _, _, fun _ => rfl⟩

/-- The machine has an output that the given stream may have become in a run. -/
def HasExtended (stream : OutputStream) (machine : Machine) : Prop :=
  ∃ output, machine.output = some output ∧ stream.Extends output

theorem HasExtended.perform {stream : OutputStream} {machine : Machine}
    (extended : HasExtended stream machine) (instruction : Instruction) :
    HasExtended stream (machine.perform instruction).2 := by
  obtain ⟨tape, input, _⟩ := machine
  obtain ⟨output, rfl, before⟩ := extended
  by_cases writes : ∃ span, instruction = .output span
  · obtain ⟨span, rfl⟩ := writes
    exact ⟨_, rfl, before.trans (output.extends_write tape.value)⟩
  · obtain ⟨result, tape', input', performed⟩ :=
      exists_perform_of_ne_output (not_exists.mp writes) tape input
    rw [performed]
    exact ⟨output, rfl, before⟩

end Machine

namespace Code

variable {code : Code} {index place : Nat} {machine state after : Machine}

theorem Reaches.hasExtended {stream : OutputStream}
    (reaches : code.Reaches index machine place state) (start : machine.output = some stream) :
    state.HasExtended stream :=
  reaches.keeps (fun instruction _ extended => extended.perform instruction)
    ⟨stream, start, .refl stream⟩

/-- A run that has come to a write either is still there or has written the current cell. -/
theorem Reaches.eq_or_hasExtended {span : Span} {output : OutputStream}
    (reaches : code.Reaches index machine place state)
    (here : code.instructions[index]? = some (.output span))
    (start : machine.output = some output) :
    (index = place ∧ machine = state) ∨ ∃ rest, output.write machine.tape.value = (.ok (), rest) ∧
      state.HasExtended rest := by
  rcases reaches.cases with still | ⟨instruction, after, found, performed, others⟩
  · exact .inl still
  · rw [here] at found
    cases found
    obtain ⟨tape, input, _⟩ := machine
    cases start
    rcases answer : output.write tape.value with ⟨e | done, rest⟩ <;>
      simp only [Machine.perform, Machine.writeCell, answer] at performed <;> cases performed
    exact .inr ⟨rest, rfl, others.hasExtended rfl⟩

end Code

namespace Machine

/-- A program that succeeds has been loaded, and its code comes to the end of it. -/
theorem exists_code_of_ends_ok {machine after : Machine} {program : List Instruction}
    (ended : machine.Ends program (.ok ()) after) :
    ∃ code, Code.load program = .ok code ∧ code.EndsFrom 0 machine (.ok ()) after := by
  cases loaded : Code.load program with
  | error e =>
      obtain ⟨same, -⟩ := (ends_of_load_error loaded).mp ended
      cases same
  | ok code => exact ⟨code, rfl, (ends_of_load_ok loaded).mp ended⟩

/-- A program that succeeds flushes its output once, at the end. -/
theorem exists_output_of_ends_ok {machine after : Machine} {program : List Instruction}
    {output : OutputStream} (start : machine.output = some output)
    (ended : machine.Ends program (.ok ()) after) :
    ∃ tape input last, after = ⟨tape, input, some (OutputStream.flush last).2⟩ ∧
      output.Extends last := by
  obtain ⟨code, -, ends⟩ := exists_code_of_ends_ok ended
  obtain ⟨place, ⟨tape, input, _⟩, reaches, -, flush⟩ := Code.exists_flush_of_endsFrom_ok ends
  obtain ⟨last, rfl, before⟩ := reaches.hasExtended start
  exact ⟨tape, input, last, (congrArg Prod.snd flush).symm, before⟩

/-! ### An output that fails on the way -/

/-- Two machines that differ in the replies of their outputs alone: one output never fails, and the
other one fails when it has accepted `limit` bytes in all. -/
inductive Cut (why : StreamFailure) (later : List WriteReply) (limit : Nat) :
    Machine → Machine → Prop where
  | intro {tape input output pending left} (never : output.NeverFails)
      (fails : FailsAfter left why later pending) (total : output.written.size + left = limit) :
      Cut why later limit ⟨tape, input, some output⟩ ⟨tape, input, some { output with pending }⟩

/-- The bytes that the output of a machine has accepted. -/
def written (machine : Machine) : List UInt8 :=
  machine.output.elim [] (·.written.toList)

section Cut

variable {why : StreamFailure} {later : List WriteReply} {limit : Nat} {a b : Machine}

theorem Cut.tape_eq (cut : Cut why later limit a b) : a.tape = b.tape := by
  cases cut
  rfl

/-- The machines stay together, unless the byte to be written is the one that is not accepted. -/
theorem Cut.perform (cut : Cut why later limit a b) (instruction : Instruction) :
    ((∃ span, instruction = .output span) ∧ a.written.length = limit) ∨
      ((a.perform instruction).1 = (b.perform instruction).1 ∧
        Cut why later limit (a.perform instruction).2 (b.perform instruction).2) := by
  obtain @⟨tape, input, output, pending, left, never, fails, total⟩ := cut
  by_cases writes : ∃ span, instruction = .output span
  · obtain ⟨span, rfl⟩ := writes
    cases left with
    | zero => exact .inl ⟨⟨span, rfl⟩, total⟩
    | succ left =>
        obtain ⟨rest, accepted, still⟩ := never.write tape.value
        obtain ⟨rest', accepted', others⟩ := fails.write_succ tape.value output
        have counted : (output.written.push tape.value).size + left = limit := by
          rw [Array.size_push]
          omega
        simp only [Machine.perform, writeCell, accepted, accepted']
        exact .inr ⟨trivial, .intro still others counted⟩
  · obtain ⟨result, tape', input', performed⟩ :=
      exists_perform_of_ne_output (not_exists.mp writes) tape input
    rw [performed, performed]
    exact .inr ⟨rfl, .intro never fails total⟩

/-- The byte that is not accepted ends the run, and leaves everything but the replies as it was. -/
theorem Cut.perform_full (cut : Cut why later limit a b) (full : a.written.length = limit)
    (span : Span) :
    ∃ output, a.output = some output ∧ b.perform (.output span) =
      (.error (.stream why), ⟨a.tape, a.input, some { output with pending := later }⟩) := by
  obtain @⟨tape, input, output, pending, left, never, fails, total⟩ := cut
  have here : output.written.size = limit := full
  obtain rfl : left = 0 := by omega
  refine ⟨output, rfl, ?_⟩
  simp only [Machine.perform, writeCell, fails.write_zero tape.value output]
  rfl

theorem Cut.flush (cut : Cut why later limit a b) :
    a.flush.1 = b.flush.1 ∧ Cut why later limit a.flush.2 b.flush.2 := by
  obtain ⟨never, fails, total⟩ := cut
  exact ⟨rfl, .intro ⟨never.accepts, never.flushes.flush.2⟩ fails total⟩

theorem shadows_cut (code : Code) (why : StreamFailure) (later : List WriteReply) (limit : Nat) :
    code.Shadows code (Cut why later limit) fun index a _ =>
      (∃ span, code.instructions[index]? = some (.output span)) ∧ a.written.length = limit where
  effect := by
    intro a b index cut
    cases here : code.instructions[index]? with
    | none =>
        rw [Code.effectAt_behind here, Code.effectAt_behind here]
        exact .inr cut.flush
    | some instruction =>
        rw [Code.effectAt_of_getElem? here, Code.effectAt_of_getElem? here]
        rcases cut.perform instruction with ⟨⟨span, rfl⟩, full⟩ | together
        · exact .inl ⟨⟨span, rfl⟩, full⟩
        · exact .inr together
  following := by
    intro a b index cut
    rw [Code.following, Code.following, cut.tape_eq]
  breaks := by
    rintro a b index cut ⟨⟨span, here⟩, full⟩
    obtain ⟨output, -, failed⟩ := cut.perform_full full span
    rw [Code.effectAt_of_getElem? here, failed]
    exact ⟨_, rfl⟩

end Cut

/-- A run of the program comes to this state, in which the next thing to do is to write the current
cell, when it has written `count` bytes. -/
def AboutToWrite (machine : Machine) (program : List Instruction) (count : Nat) (state : Machine) :
    Prop :=
  ∃ code place span, Code.load program = .ok code ∧ code.Reaches 0 machine place state ∧
    code.instructions[place]? = some (.output span) ∧
    state.written.length = machine.written.length + count

section Run

variable {program : List Instruction} {machine after state : Machine} {output : OutputStream}
  {count : Nat}

/-- A run comes but once to where it writes a given byte. -/
theorem aboutToWrite_unique {state' : Machine} (start : machine.output = some output)
    (about : machine.AboutToWrite program count state)
    (about' : machine.AboutToWrite program count state') : state = state' := by
  obtain ⟨code, place, span, loaded, reaches, here, counted⟩ := about
  obtain ⟨code', place', span', loaded', reaches', here', counted'⟩ := about'
  rw [loaded] at loaded'
  cases loaded'
  -- Behind the first of the two writes, one byte more has been written than before it.
  have once {place place' : Nat} {span : Span} {s s' : Machine}
      (reaches : code.Reaches 0 machine place s)
      (here : code.instructions[place]? = some (.output span))
      (same : s.written.length = s'.written.length) (on : code.Reaches place s place' s') :
      s = s' := by
    obtain ⟨tape, input, _⟩ := s
    obtain ⟨stream, rfl, -⟩ := reaches.hasExtended start
    rcases on.eq_or_hasExtended here rfl with ⟨-, still⟩ | ⟨rest, accepted, last, found, extends_⟩
    · exact still
    · have longer := extends_.written.length_le
      rw [OutputStream.write_ok accepted, List.length_append, List.length_singleton] at longer
      simp only [written, found, Option.elim_some] at same
      omega
  rcases reaches.total reaches' with on | on
  · exact once reaches here (counted.trans counted'.symm) on
  · exact (once reaches' here' (counted'.trans counted.symm) on).symm

/-- Where a run that succeeds is about to write a byte, the bytes before it have been written, and
the current cell is that byte. -/
theorem AboutToWrite.cell_eq {bytes : List UInt8} (about : machine.AboutToWrite program count state)
    (start : machine.output = some output) (ended : machine.Ends program (.ok ()) after)
    (whole : after.written = machine.written ++ bytes) :
    bytes[count]? = some state.tape.value ∧
      ∃ pending, state.output = some { output with
        pending, written := output.written ++ (bytes.take count).toArray } := by
  obtain ⟨code, place, span, loaded, reaches, here, counted⟩ := about
  obtain ⟨tape, input, _⟩ := state
  obtain ⟨⟨pending, next, later, written, flushes⟩, rfl, ⟨front, before⟩, rfl, rfl, rfl⟩ :=
    reaches.hasExtended start
  obtain ⟨place', ⟨tape', input', _⟩, on, behind, flush⟩ :=
    Code.exists_flush_of_endsFrom_ok (reaches.endsFrom_iff.mp ((ends_of_load_ok loaded).mp ended))
  rcases on.eq_or_hasExtended here rfl with ⟨rfl, -⟩ | ⟨rest, accepted, last, rfl, ⟨tail, more⟩, -⟩
  · rw [here] at behind
    cases behind
  · have same : _ = after := congrArg Prod.snd flush
    have origin : machine.written = output.written.toList := by rw [Machine.written, start]; rfl
    have split : bytes = front ++ tape.value :: tail := by
      rw [OutputStream.write_ok accepted, ← before] at more
      rw [← same, origin] at whole
      have joined : last.written.toList = output.written.toList ++ bytes := whole
      rw [← more, List.append_assoc, List.append_assoc] at joined
      exact (List.append_cancel_left joined).symm
    have length : front.length = count := by
      rw [origin] at counted
      have sized : written.toList.length = output.written.toList.length + count := counted
      rw [← before, List.length_append] at sized
      omega
    subst split length
    refine ⟨by simp, pending, ?_⟩
    have stored : output.written ++ front.toArray = written :=
      Array.toList_inj.mp (Array.toList_append.trans before)
    rw [List.take_left, stored]

/-- With an output that fails after some bytes a run ends like the one with an output that never
fails, or it ends where that one is about to write the byte that is not accepted. -/
theorem ends_of_cut {failing : Machine} {why : StreamFailure} {later : List WriteReply}
    (cut : Cut why later (machine.written.length + count) machine failing)
    (ended : machine.Ends program (.ok ()) after) :
    (∃ after', failing.Ends program (.ok ()) after' ∧
      Cut why later (machine.written.length + count) after after') ∨
    ∃ state stream, machine.AboutToWrite program count state ∧ state.output = some stream ∧
      failing.Ends program (.error (.stream why))
        ⟨state.tape, state.input, some { stream with pending := later }⟩ := by
  obtain ⟨code, loaded, ends⟩ := exists_code_of_ends_ok ended
  rcases (shadows_cut code why later (machine.written.length + count)).endsFrom cut ends with
    ⟨after', ends', cut'⟩ | ⟨place, state, state', reaches, there, ⟨⟨span, here⟩, full⟩, broken⟩
  · exact .inl ⟨after', (ends_of_load_ok loaded).mpr ends', cut'⟩
  · obtain ⟨stream, found, failed⟩ := there.perform_full full span
    rw [Code.effectAt_of_getElem? here, failed] at broken
    exact .inr ⟨state, stream, ⟨code, place, span, loaded, reaches, here, full⟩, found,
      (ends_of_load_ok loaded).mpr broken⟩

end Run

/-! ### An output whose flush fails -/

/-- Two machines that differ in what their flushes run into alone: the output of the second one has
other replies to them. Both outputs have been flushed `flushes` times. -/
inductive OtherFlushes (next : List (Option StreamFailure)) (later : Option StreamFailure)
    (flushes : Nat) : Machine → Machine → Prop where
  | intro {tape input output} (unflushed : output.flushes = flushes) :
      OtherFlushes next later flushes ⟨tape, input, some output⟩
        ⟨tape, input, some (output.withFlushes next later)⟩

section OtherFlushes

variable {next : List (Option StreamFailure)} {later : Option StreamFailure}

theorem OtherFlushes.perform {flushes : Nat} {a b : Machine}
    (related : OtherFlushes next later flushes a b) (instruction : Instruction) :
    (a.perform instruction).1 = (b.perform instruction).1 ∧
      OtherFlushes next later flushes (a.perform instruction).2 (b.perform instruction).2 := by
  obtain @⟨tape, input, output, unflushed⟩ := related
  by_cases writes : ∃ span, instruction = .output span
  · obtain ⟨span, rfl⟩ := writes
    have extended := output.extends_write tape.value
    simp only [Machine.perform, writeCell, OutputStream.write_withFlushes]
    exact ⟨trivial, .intro (extended.flushes.trans unflushed)⟩
  · obtain ⟨result, tape', input', performed⟩ :=
      exists_perform_of_ne_output (not_exists.mp writes) tape input
    rw [performed, performed]
    exact ⟨rfl, .intro unflushed⟩

/-- A stream whose next flush fails is flushed all the same. -/
theorem flush_withFlushes {why : StreamFailure} (fails : next.headD later = some why) (tape : Tape)
    (input : Option InputStream) (output : OutputStream) :
    flush ⟨tape, input, some (output.withFlushes next later)⟩ =
      (.error (.stream why), ⟨tape, input, some (output.flush.2.withFlushes next.tail later)⟩) := by
  simp only [Machine.flush, OutputStream.flush, OutputStream.withFlushes, fails]
  rfl

theorem shadows_otherFlushes (code : Code) {why : StreamFailure}
    (fails : next.headD later = some why) (flushes : Nat) :
    code.Shadows code (OtherFlushes next later flushes) fun index _ _ =>
      code.instructions[index]? = none where
  effect := by
    intro a b index related
    cases here : code.instructions[index]? with
    | none => exact .inl rfl
    | some instruction =>
        rw [Code.effectAt_of_getElem? here, Code.effectAt_of_getElem? here]
        exact .inr (related.perform instruction)
  following := by
    intro a b index related
    cases related
    rfl
  breaks := by
    intro a b index related behind
    cases related
    rw [Code.effectAt_behind behind, flush_withFlushes fails]
    exact ⟨_, rfl⟩

/-- Where a run succeeds, the one whose flush fails has done the same until then. -/
theorem ends_of_flush_fails {tape tape' : Tape} {input input' : Option InputStream}
    {output output' : OutputStream} {program : List Instruction} {why : StreamFailure}
    (fails : next.headD later = some why)
    (ended : Ends ⟨tape, input, some output⟩ program (.ok ()) ⟨tape', input', some output'⟩) :
    Ends ⟨tape, input, some (output.withFlushes next later)⟩ program (.error (.stream why))
      ⟨tape', input', some (output'.withFlushes next.tail later)⟩ := by
  have related : OtherFlushes next later output.flushes ⟨tape, input, some output⟩
    ⟨tape, input, some (output.withFlushes next later)⟩ := .intro rfl
  obtain ⟨code, loaded, ends⟩ := exists_code_of_ends_ok ended
  rcases (shadows_otherFlushes code fails output.flushes).endsFrom related ends with
    ⟨after', -, related'⟩ | ⟨place, state, state', reaches, there, behind, broken⟩
  · -- Once it has been flushed, the output is out of the relation.
    cases related' with
    | intro unflushed =>
        obtain ⟨_, _, last, same, before⟩ := exists_output_of_ends_ok rfl ended
        injection same with _ _ same
        have count : output'.flushes = last.flushes + 1 :=
          congrArg OutputStream.flushes (Option.some.inj same)
        have unchanged := before.flushes
        omega
  · cases there
    have flush := reaches.endsFrom_iff.mp ends
    rw [Code.endsFrom_finish fun fuel => Code.runFrom_behind fuel behind] at flush
    rw [Code.effectAt_behind behind, flush_withFlushes fails] at broken
    cases flush.2
    exact (ends_of_load_ok loaded).mpr broken

end OtherFlushes

/-! ### Healthy runs and failing ones -/

/-- A program that succeeds with an output that never fails writes some bytes and flushes once. With
an output that accepts `count` bytes and then fails, it does the same if there are no more bytes.
Otherwise it fails for the output's reason, with the tape and the input that it has, in its one
moment before the write of the byte that is not accepted; the bytes before this one are written, and
nothing is flushed. If only the flush fails, whatever later flushes run into, everything but the
result is the same. -/
theorem failing_output {tape : Tape} {input : Option InputStream} {output : OutputStream}
    {program : List Instruction} {after : Machine} (never : output.NeverFails)
    (ended : Ends ⟨tape, input, some output⟩ program (.ok ()) after) :
    ∃ tape' input' output' bytes, after = ⟨tape', input', some output'⟩ ∧
      output'.written.toList = output.written.toList ++ bytes ∧
      output'.flushes = output.flushes + 1 ∧
      (∀ count why later pending, FailsAfter count why later pending →
        (bytes.length ≤ count → ∃ pending', FailsAfter (count - bytes.length) why later pending' ∧
          Ends ⟨tape, input, some { output with pending }⟩ program (.ok ())
            ⟨tape', input', some { output' with pending := pending' }⟩) ∧
        (count < bytes.length → ∃ state,
          AboutToWrite ⟨tape, input, some output⟩ program count state ∧
          (∀ other, AboutToWrite ⟨tape, input, some output⟩ program count other →
            other = state) ∧
          bytes[count]? = some state.tape.value ∧
          Ends ⟨tape, input, some { output with pending }⟩ program (.error (.stream why))
            ⟨state.tape, state.input, some { output with
              pending := later
              written := output.written ++ (bytes.take count).toArray }⟩)) ∧
      ∀ next later why, next.headD later = some why →
        Ends ⟨tape, input, some (output.withFlushes next later)⟩ program (.error (.stream why))
          ⟨tape', input', some (output'.withFlushes next.tail later)⟩ := by
  obtain ⟨tape', input', last, rfl, before⟩ := exists_output_of_ends_ok rfl ended
  obtain ⟨bytes, more⟩ := id before.written
  refine ⟨tape', input', _, bytes, rfl, more.symm, congrArg (· + 1) before.flushes, ?_,
    fun next later why flushFails => ends_of_flush_fails flushFails ended⟩
  intro count why later pending fails
  have cut : Cut why later (output.written.size + count) ⟨tape, input, some output⟩
    ⟨tape, input, some { output with pending }⟩ := .intro never fails rfl
  have sized := congrArg List.length more
  simp only [List.length_append, Array.length_toList] at sized
  have ending := ends_of_cut cut ended
  constructor
  · intro enough
    rcases ending with ⟨after', ends, cut'⟩ | ⟨state, stream, about, -, -⟩
    · cases cut' with
      | @intro _ _ _ pending' left never' fails' total =>
          have total : last.written.size + left = output.written.size + count := total
          obtain rfl : left = count - bytes.length := by omega
          exact ⟨pending', fails', ends⟩
    · have found := (about.cell_eq rfl ended more.symm).1
      have within := (List.getElem?_eq_some_iff.mp found).1
      omega
  · intro short
    rcases ending with ⟨after', ends, cut'⟩ | ⟨state, stream, about, found, ends⟩
    · cases cut' with
      | intro never' fails' total =>
          have total : last.written.size + _ = output.written.size + count := total
          omega
    · obtain ⟨cell, _, same⟩ := about.cell_eq rfl ended more.symm
      rw [found] at same
      cases same
      exact ⟨state, about, fun other about' => aboutToWrite_unique rfl about' about, cell, ends⟩

/-- The theorem for a loop that writes 2 and 1, of which an output accepts the first. -/
theorem failing_output_countdown :
    let program : List Instruction :=
      [.act .add 2 ⟨0, 1⟩, .loopStart ⟨2, 2⟩, .output ⟨3, 3⟩, .act .sub 1 ⟨4, 4⟩, .loopEnd ⟨5, 5⟩]
    let tape := Tape.blank 1 Nat.one_pos
    let replies : List WriteReply := [.interrupted, .accepted, .nothingWritten, .accepted]
    ∃ state, AboutToWrite ⟨tape, none, some {}⟩ program 1 state ∧ state.tape.value = 1 ∧
      Ends ⟨tape, none, some { pending := replies }⟩ program (.error (.stream .nothingWritten))
        ⟨state.tape, state.input, some { pending := [.accepted], written := #[2] }⟩ := by
  intro program tape replies
  have never : NeverFails {} := ⟨nofun, nofun, rfl⟩
  have healthy : Ends ⟨tape, none, some {}⟩ program (.ok ())
    ⟨tape, none, some { written := #[2, 1], flushes := 1 }⟩ :=
    ⟨9, by subst program tape; rfl⟩
  obtain ⟨_, _, _, bytes, same, more, -, fails, -⟩ := failing_output never healthy
  cases same
  obtain rfl : bytes = [2, 1] := more.symm
  obtain ⟨state, about, -, cell, ends⟩ :=
    (fails 1 _ _ replies (.interrupted (.accepted .nothingWritten))).2 (by decide)
  exact ⟨state, about, (Option.some.inj cell).symm, ends⟩

end Machine

end Brainfuck
