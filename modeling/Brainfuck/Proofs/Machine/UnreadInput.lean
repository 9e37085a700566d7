import Brainfuck.Proofs.Machine.Progress

/-!
Input that is not read. What happens at one index takes what it reads off the front of the input,
and does not look behind it (`exists_front_effectAt`). So a run that is never told that its input is
at an end has taken some bytes off the front, and does the same on every input that starts with
these bytes (`exists_front_runFrom`): the others cannot make a difference (`ends_of_same_front`).
-/

namespace Brainfuck

namespace Machine

/-- An instruction that reads nothing does the same whatever the input is, and leaves the input
alone. -/
theorem exists_perform_of_ne_input {instruction : Instruction}
    (deaf : ∀ span, instruction ≠ .input span) (tape : Tape) (output : Option OutputStream) :
    ∃ result tape' output', ∀ input,
      perform instruction ⟨tape, input, output⟩ = (result, ⟨tape', input, output'⟩) := by
  cases instruction with
  | act action count span => exact ⟨_, _, _, fun _ => rfl⟩
  | output span => cases output <;> exact ⟨_, _, _, fun _ => rfl⟩
  | input span => exact absurd rfl (deaf span)
  | loopStart span => exact ⟨_, _, _, fun _ => rfl⟩
  | loopEnd span => exact ⟨_, _, _, fun _ => rfl⟩

theorem exists_flush (tape : Tape) (output : Option OutputStream) :
    ∃ result output', ∀ input, flush ⟨tape, input, output⟩ = (result, ⟨tape, input, output'⟩) := by
  cases output <;> exact ⟨_, _, fun _ => rfl⟩

end Machine

namespace Code

variable {code : Code} {index : Nat} {tape : Tape} {output : Option OutputStream}
  {bytes : List UInt8} {count : Nat}

/-! ### Bytes that are taken -/

/-- At the index stands a read, and the input answers that it is at its end. -/
def MeetsEnd (code : Code) (index : Nat) (machine : Machine) : Prop :=
  (∃ span, code.instructions[index]? = some (.input span)) ∧
    ∃ input rest, machine.input = some input ∧ input.read = (.ok none, rest)

/-- What happens at an index takes some bytes off the front of the input, unless the input is found
to be at its end, and it would be the same whatever stood behind them. -/
theorem exists_front_effectAt
    (notEnd : ¬ code.MeetsEnd index ⟨tape, some ⟨bytes.map .byte, count⟩, output⟩) :
    ∃ front back result tape' output', bytes = front ++ back ∧
      ∀ later, code.effectAt index ⟨tape, some ⟨front.map .byte ++ later, count⟩, output⟩ =
        (result, ⟨tape', some ⟨later, count + front.length⟩, output'⟩) := by
  cases here : code.instructions[index]? with
  | none =>
      obtain ⟨result, output', flushed⟩ := Machine.exists_flush tape output
      refine ⟨[], bytes, result, tape, output', rfl, fun later => ?_⟩
      rw [effectAt_behind here]
      exact flushed _
  | some instruction =>
      by_cases reads : ∃ span, instruction = .input span
      · obtain ⟨span, rfl⟩ := reads
        cases bytes with
        | nil => exact absurd ⟨⟨span, here⟩, _, _, rfl, rfl⟩ notEnd
        | cons byte back =>
            refine ⟨[byte], back, .ok (), tape.set byte, output, rfl, fun later => ?_⟩
            rw [effectAt_of_getElem? here]
            rfl
      · obtain ⟨result, tape', output', performed⟩ :=
          Machine.exists_perform_of_ne_input (not_exists.mp reads) tape output
        refine ⟨[], bytes, result, tape', output', rfl, fun later => ?_⟩
        rw [effectAt_of_getElem? here]
        exact performed _

/-- A run that ends, and never finds its input at the end, has taken some bytes off the front of the
input, and it would be the same whatever stood behind them. -/
theorem exists_front_runFrom {fuel : Nat} {result : Except Error Unit} {after : Machine}
    (ended : code.runFrom fuel index ⟨tape, some ⟨bytes.map .byte, count⟩, output⟩ =
      .finished result after)
    (never : ∀ place state,
      code.Reaches index ⟨tape, some ⟨bytes.map .byte, count⟩, output⟩ place state →
        ¬ code.MeetsEnd place state) :
    ∃ front back tape' output', bytes = front ++ back ∧
      after = ⟨tape', some ⟨back.map .byte, count + front.length⟩, output'⟩ ∧
      ∀ later, code.runFrom fuel index ⟨tape, some ⟨front.map .byte ++ later, count⟩, output⟩ =
        .finished result ⟨tape', some ⟨later, count + front.length⟩, output'⟩ := by
  induction fuel generalizing index tape bytes count output with
  | zero => cases ended
  | succ fuel ih =>
      obtain ⟨front, back, answer, tape', output', rfl, effect⟩ :=
        exists_front_effectAt (never index _ (.refl ..))
      have first := effect (back.map .byte)
      rw [← List.map_append] at first
      -- What the effect at this index is decides how the run goes on, for every input alike.
      cases answer with
      | error e =>
          rw [runFrom_of_error fuel first] at ended
          cases ended
          exact ⟨front, back, tape', output', rfl, rfl, fun later =>
            runFrom_of_error fuel (effect later)⟩
      | ok done =>
          cases goesOn : code.following index ⟨tape', none, none⟩ with
          | none =>
              rw [runFrom_of_following_none fuel first goesOn] at ended
              cases ended
              exact ⟨front, back, tape', output', rfl, rfl, fun later =>
                runFrom_of_following_none fuel (effect later) goesOn⟩
          | some next =>
              rw [runFrom_of_following fuel first goesOn] at ended
              obtain ⟨more, rest, tape'', output'', rfl, rfl, others⟩ :=
                ih ended fun place state reaches => never place state (.step first goesOn reaches)
              refine ⟨front ++ more, rest, tape'', output'', ?_, ?_, fun later => ?_⟩
              · rw [List.append_assoc]
              · rw [List.length_append, Nat.add_assoc]
              · rw [List.map_append, List.append_assoc,
                  runFrom_of_following fuel (effect _) goesOn, others, List.length_append,
                  Nat.add_assoc]

end Code

/-! ### Inputs with the same front -/

namespace Machine

/-- In a run of the program some read is told that the input is at its end. -/
def MeetsEndOfInput (machine : Machine) (program : List Instruction) : Prop :=
  ∃ code place state, Code.load program = .ok code ∧ code.Reaches 0 machine place state ∧
    code.MeetsEnd place state

/-- A program that ends when it has read `count` bytes, and is never told that the input is at its
end, ends in the same way on every input with the same first `count` bytes. It has read exactly
these bytes, and nothing else differs but the input that is left. -/
theorem ends_of_same_front {tape : Tape} {output : Option OutputStream}
    {program : List Instruction} {bytes other : List UInt8} {result : Except Error Unit}
    {after : Machine} {count : Nat}
    (ended : Ends ⟨tape, some (.ofBytes bytes), output⟩ program result after)
    (never : ¬ MeetsEndOfInput ⟨tape, some (.ofBytes bytes), output⟩ program)
    (read : after.input.map (·.bytesRead) = some count)
    (same : other.take count = bytes.take count) :
    Ends ⟨tape, some (.ofBytes other), output⟩ program result
      { after with input := some ⟨(other.drop count).map .byte, count⟩ } := by
  cases loaded : Code.load program with
  | error e =>
      obtain ⟨rfl, rfl⟩ := (ends_of_load_error loaded).mp ended
      obtain rfl : 0 = count := Option.some.inj read
      exact (ends_of_load_error loaded).mpr ⟨rfl, rfl⟩
  | ok code =>
      obtain ⟨fuel, finished⟩ := (ends_of_load_ok loaded).mp ended
      obtain ⟨front, back, tape', output', rfl, rfl, before⟩ :=
        Code.exists_front_runFrom finished fun place state reaches meets =>
          never ⟨code, place, state, loaded, reaches, meets⟩
      obtain rfl : 0 + front.length = count := Option.some.inj read
      rw [Nat.zero_add, List.take_left] at same
      have split : other = front ++ other.drop front.length := by
        rw [← List.take_append_drop front.length other, same, List.drop_left]
      refine (ends_of_load_ok loaded).mpr ⟨fuel, ?_⟩
      rw [InputStream.ofBytes, split, List.map_append, before, Nat.zero_add, List.drop_left]

/-- The theorem for an echo up to the first zero, which is the second byte that it reads. -/
theorem ends_of_same_front_echo :
    let program : List Instruction := [.input ⟨0, 0⟩, .loopStart ⟨1, 1⟩, .output ⟨2, 2⟩,
      .input ⟨3, 3⟩, .loopEnd ⟨4, 4⟩]
    let tape := Tape.blank 1 Nat.one_pos
    let after : Machine := ⟨tape, some ⟨[.byte 5], 2⟩, some { written := #[7], flushes := 1 }⟩
    (Ends ⟨tape, some (.ofBytes [7, 0, 5]), some {}⟩ program (.ok ()) after ∧
      ¬ MeetsEndOfInput ⟨tape, some (.ofBytes [7, 0, 5]), some {}⟩ program) ∧
    Ends ⟨tape, some (.ofBytes [7, 0]), some {}⟩ program (.ok ())
      { after with input := some ⟨[], 2⟩ } := by
  intro program tape after
  have ended : Ends ⟨tape, some (.ofBytes [7, 0, 5]), some {}⟩ program (.ok ()) after :=
    ⟨6, by subst program tape; rfl⟩
  have never : ¬ MeetsEndOfInput ⟨tape, some (.ofBytes [7, 0, 5]), some {}⟩ program := by
    -- The five steps of the run stand at the indices 0 to 4, and only the reads matter.
    rintro ⟨code, place, state, loaded, ⟨fuel, unfinished⟩, ⟨span, here⟩, input, rest, found,
      answer⟩
    subst program tape
    cases loaded
    rcases fuel with _ | _ | _ | _ | _ | _ | fuel <;> cases unfinished
    · cases found
      cases answer
    · cases here
    · cases here
    · cases found
      cases answer
    · cases here
    · cases here
  exact ⟨⟨ended, never⟩, ends_of_same_front ended never rfl rfl⟩

end Machine

end Brainfuck
