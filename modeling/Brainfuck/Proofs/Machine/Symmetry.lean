import Brainfuck.Proofs.Machine.Lockstep
import Brainfuck.Proofs.Tape.Ideal

/-!
Symmetries of the tape. A change of ideal tapes is a symmetry when it keeps the current byte and
does not matter to a write of it. When one machine's tape shows what a symmetry makes of another's,
and their streams are the same, one is the other's image. Reading, writing and flushing cannot tell
a machine from its image, and leave an image behind.
-/

namespace Brainfuck

/-- A change of ideal tapes after which the current byte is the same, and is written just as well
before as after. -/
structure IdealTape.Symmetry (f : IdealTape → IdealTape) : Prop where
  current : ∀ s, (f s).current = s.current
  write : ∀ value s, f (s.write value) = (f s).write value

namespace Machine

/-- The second tape shows what `f` makes of the first one. The streams are the same as a whole: what
was read and written, how often the output was flushed, and the replies still to come. -/
structure Image (f : IdealTape → IdealTape) (a b : Machine) : Prop where
  tape : b.tape.ideal = f a.tape.ideal
  input : b.input = a.input
  output : b.output = a.output

namespace Image

variable {f : IdealTape → IdealTape} {a b : Machine}

theorem value (image : Image f a b) (symmetry : IdealTape.Symmetry f) :
    a.tape.value = b.tape.value := by
  rw [← Tape.current_ideal, ← Tape.current_ideal, image.tape, symmetry.current]

theorem readCell (image : Image f a b) (symmetry : IdealTape.Symmetry f) :
    a.readCell.1 = b.readCell.1 ∧ Image f a.readCell.2 b.readCell.2 := by
  obtain ⟨t, _, _⟩ := a
  obtain ⟨t', input, output⟩ := b
  obtain ⟨shown, rfl, rfl⟩ := image
  cases input with
  | none => exact ⟨rfl, shown, rfl, rfl⟩
  | some input =>
      rcases answer : input.read with ⟨_ | _ | value, rest⟩ <;> simp only [Machine.readCell, answer]
      · exact ⟨trivial, shown, rfl, rfl⟩
      · exact ⟨trivial, shown, rfl, rfl⟩
      · refine ⟨trivial, ?_, rfl, rfl⟩
        rw [Tape.ideal_set, Tape.ideal_set, shown, symmetry.write]

theorem writeCell (image : Image f a b) (symmetry : IdealTape.Symmetry f) :
    a.writeCell.1 = b.writeCell.1 ∧ Image f a.writeCell.2 b.writeCell.2 := by
  have value := image.value symmetry
  obtain ⟨t, _, _⟩ := a
  obtain ⟨t', input, output⟩ := b
  obtain ⟨shown, rfl, rfl⟩ := image
  cases output with
  | none => exact ⟨rfl, shown, rfl, rfl⟩
  | some output =>
      rw [Machine.writeCell, Machine.writeCell, value]
      exact ⟨rfl, shown, rfl, rfl⟩

theorem flush (image : Image f a b) : a.flush.1 = b.flush.1 ∧ Image f a.flush.2 b.flush.2 := by
  obtain ⟨t, _, _⟩ := a
  obtain ⟨t', input, output⟩ := b
  obtain ⟨shown, rfl, rfl⟩ := image
  cases output <;> exact ⟨rfl, shown, rfl, rfl⟩

end Image

end Machine

end Brainfuck
