import Brainfuck.Proofs.Machine.Symmetry

/-!
The capacity of a tape stays out of sight. Two machines show alike when their tapes have the same
position and the same cell at every place, stored or not, and their streams are the same; how many
cells are stored, and where, may differ. This is a lockstep, so how many cells a tape has at first
never decides how a program ends or what it leaves to be seen (`capacity_unobservable`).
-/

namespace Brainfuck.Machine

/-- Nothing that can be seen of two machines differs. The streams are the same as a whole: what was
read and written, how often the output was flushed, and the replies still to come. -/
structure ShowsAlike (a b : Machine) : Prop where
  position : a.tape.position = b.tape.position
  value : a.tape.value = b.tape.value
  cellAt : ∀ place, a.tape.cellAt place = b.tape.cellAt place
  input : a.input = b.input
  output : a.output = b.output

theorem symmetry_id : IdealTape.Symmetry id where
  current _ := rfl
  write _ _ := rfl

theorem showsAlike_iff {a b : Machine} : ShowsAlike a b ↔ Image id a b := by
  constructor
  · intro alike
    have shown : b.tape.ideal = a.tape.ideal := by
      rw [Tape.ideal, Tape.ideal, alike.position, funext alike.cellAt]
    exact ⟨shown, alike.input.symm, alike.output.symm⟩
  · intro image
    have shown : a.tape.ideal = b.tape.ideal := image.tape.symm
    exact ⟨congrArg IdealTape.position shown, image.value symmetry_id,
      congrFun (congrArg IdealTape.cell shown), image.input.symm, image.output.symm⟩

/-- The operation on a tape that an action stands for. -/
def operation (count : UInt32) : Action → Tape.Operation
  | .right => .moveRight count.toNat
  | .left => .moveLeft count.toNat
  | .add => .add count
  | .sub => .sub count

theorem act_eq_apply (count : UInt32) (action : Action) (t : Tape) :
    act count action t = (operation count action).apply t := by
  cases action <;> rfl

/-- Machines that show alike go through every program in step. -/
theorem lockstep_showsAlike : Lockstep ShowsAlike where
  value := ShowsAlike.value
  perform := by
    intro a b instruction alike
    have image := showsAlike_iff.mp alike
    cases instruction with
    | act action count span =>
        refine ⟨rfl, showsAlike_iff.mpr ⟨?_, image.input, image.output⟩⟩
        have shown : b.tape.ideal = a.tape.ideal := image.tape
        simp only [perform, act_eq_apply, Tape.ideal_apply, shown, id]
    | input span => exact (image.readCell symmetry_id).imp_right showsAlike_iff.mpr
    | output span => exact (image.writeCell symmetry_id).imp_right showsAlike_iff.mpr
    | loopStart span => exact ⟨rfl, alike⟩
    | loopEnd span => exact ⟨rfl, alike⟩
  flush alike := (showsAlike_iff.mp alike).flush.imp_right showsAlike_iff.mpr

/-! ### New tapes -/

/-- Two machines with new tapes, each with streams that are the same for both, run the same programs
one after another. Either both come to the end of the last program or neither does, and then the
records agree one by one: the results are the same, and what is left shows alike. Since the programs
are arbitrary, this also holds at the end of every one of them. -/
theorem capacity_unobservable {capacity capacity' : Nat} (pos : 0 < capacity) (pos' : 0 < capacity')
    (input : Option InputStream) (output : Option OutputStream)
    (programs : List (List Instruction)) :
    let first : Machine := ⟨.blank capacity pos, input, output⟩
    let second : Machine := ⟨.blank capacity' pos', input, output⟩
    ((∃ records, first.EndsInTurn programs records) ↔
      ∃ records, second.EndsInTurn programs records) ∧
    ∀ records records', first.EndsInTurn programs records →
      second.EndsInTurn programs records' →
      List.Forall₂ (fun record record' => record.1 = record'.1 ∧ ShowsAlike record.2 record'.2)
        records records' := by
  intro first second
  have shown : second.tape.ideal = first.tape.ideal := by rw [Tape.ideal_blank, Tape.ideal_blank]
  have alike : ShowsAlike first second := showsAlike_iff.mpr ⟨shown, rfl, rfl⟩
  have alike' : ShowsAlike second first := showsAlike_iff.mpr ⟨shown.symm, rfl, rfl⟩
  exact lockstep_showsAlike.agreeInTurn alike alike' (fun shows => shows) programs

/-- The theorem at tapes of one cell and of five, for a program that is refused, one that walks to
the left and fails to read, one whose flush fails, and one that goes on from there, writes and is
flushed. -/
theorem capacity_unobservable_one_five :
    (0 < 1 ∧ 0 < 5) ∧
      let input : InputStream := ⟨[.byte 7, .interrupted, .failed .nothingWritten], 0⟩
      let programs : List (List Instruction) := [[.loopEnd ⟨0, 0⟩],
        [.input ⟨0, 0⟩, .act .left 3 ⟨1, 1⟩, .input ⟨2, 2⟩],
        [.output ⟨0, 0⟩],
        [.act .right 3 ⟨0, 0⟩, .loopStart ⟨1, 1⟩, .output ⟨2, 2⟩, .act .sub 1 ⟨3, 3⟩,
          .loopEnd ⟨4, 4⟩]]
      let output : OutputStream := { nextFlushes := [some .nothingWritten, none] }
      let first : Machine := ⟨.blank 1 (by decide), some input, some output⟩
      let second : Machine := ⟨.blank 5 (by decide), some input, some output⟩
      ((∃ records, first.EndsInTurn programs records) ↔
        ∃ records, second.EndsInTurn programs records) ∧
      ∀ records records', first.EndsInTurn programs records →
        second.EndsInTurn programs records' →
        List.Forall₂ (fun record record' => record.1 = record'.1 ∧ ShowsAlike record.2 record'.2)
          records records' :=
  ⟨⟨by decide, by decide⟩, capacity_unobservable (by decide) (by decide) _ _ _⟩

end Brainfuck.Machine
