import Brainfuck.Proofs.Machine.Capacity

/-!
Left and right. The mirror image of a program moves to the left where the program moves to the
right, and the other way round. It does to the mirror image of an ideal tape what the program does
to the tape itself, so the runs of the two stay together from new tapes on
(`mirror_image`): how a stored tape tells its two sides apart stays out of sight.
-/

namespace Brainfuck

/-! ### Mirror images -/

/-- The action with left and right exchanged. -/
def Action.mirror : Action → Action
  | .right => .left
  | .left => .right
  | .add => .add
  | .sub => .sub

/-- The instruction with left and right exchanged. -/
def Instruction.mirror : Instruction → Instruction
  | .act action count span => .act action.mirror count span
  | .output span => .output span
  | .input span => .input span
  | .loopStart span => .loopStart span
  | .loopEnd span => .loopEnd span

theorem Action.mirror_mirror (action : Action) : action.mirror.mirror = action := by
  cases action <;> rfl

theorem Instruction.mirror_mirror (instruction : Instruction) :
    instruction.mirror.mirror = instruction := by
  cases instruction with
  | act action count span => rw [mirror, mirror, action.mirror_mirror]
  | _ => rfl

namespace IdealTape

/-- The ideal tape seen from the other side. -/
def mirror (s : IdealTape) : IdealTape :=
  ⟨-s.position, fun place => s.cell (-place)⟩

theorem symmetry_mirror : Symmetry mirror where
  current s := by simp only [current, mirror, Int.neg_neg]
  write value s := by
    have there (place : Int) : -place = s.position ↔ place = -s.position := by omega
    exact congrArg (mk (-s.position)) (funext fun place => if_congr (there place) rfl rfl)

/-- Actions with left and right exchanged do the same, seen from the other side. -/
theorem applyIdeal_mirror (count : UInt32) (action : Action) (s : IdealTape) :
    (Machine.operation count action.mirror).applyIdeal s.mirror =
      ((Machine.operation count action).applyIdeal s).mirror := by
  cases action with
  | right =>
      have opposite : -s.position - count.toNat = -(s.position + count.toNat) := by omega
      exact congrArg (mk · _) opposite
  | left =>
      have opposite : -s.position + count.toNat = -(s.position - count.toNat) := by omega
      exact congrArg (mk · _) opposite
  | add =>
      simp only [Machine.operation, Action.mirror, Tape.Operation.applyIdeal,
        symmetry_mirror.current, symmetry_mirror.write]
  | sub =>
      simp only [Machine.operation, Action.mirror, Tape.Operation.applyIdeal,
        symmetry_mirror.current, symmetry_mirror.write]

end IdealTape

/-! ### The brackets of a mirrored program -/

theorem Loops.Scan.step_mirror (scan : Scan) (instruction : Instruction) (index : Nat) :
    scan.step (instruction.mirror, index) = scan.step (instruction, index) := by
  cases instruction <;> rfl

theorem Loops.jumps_mirror (program : List Instruction) :
    jumps (program.map .mirror) = jumps program := by
  have step (scan : Scan) (place : Instruction × Nat) :
      scan.step (Prod.map .mirror id place) = scan.step place :=
    scan.step_mirror place.1 place.2
  simp only [jumps, List.zipIdx_map, List.foldlM_map, step, List.length_map]

namespace Code

/-- The code of the mirrored program. -/
def mirror (code : Code) : Code :=
  { code with instructions := code.instructions.map .mirror }

theorem load_mirror (program : List Instruction) :
    load (program.map .mirror) = (load program).map mirror := by
  rw [load, load, Loops.jumps_mirror]
  cases Loops.jumps program with
  | error e => rfl
  | ok jumps =>
      exact congrArg (fun instructions => Except.ok (mk instructions jumps)) List.map_toArray.symm

end Code

/-! ### Mirrored runs -/

namespace Machine

theorem Image.perform_mirror {a b : Machine} (image : Image .mirror a b)
    (instruction : Instruction) :
    (a.perform instruction).1 = (b.perform instruction.mirror).1 ∧
      Image .mirror (a.perform instruction).2 (b.perform instruction.mirror).2 := by
  cases instruction with
  | act action count span =>
      refine ⟨rfl, ?_, image.input, image.output⟩
      simp only [perform, Instruction.mirror, act_eq_apply, Tape.ideal_apply]
      rw [image.tape, IdealTape.applyIdeal_mirror]
  | input span => exact image.readCell IdealTape.symmetry_mirror
  | output span => exact image.writeCell IdealTape.symmetry_mirror
  | loopStart span => exact ⟨rfl, image⟩
  | loopEnd span => exact ⟨rfl, image⟩

theorem shadows_mirror (code : Code) :
    code.Shadows code.mirror (Image .mirror) fun _ _ _ => False where
  effect := by
    intro a b index image
    have found : code.mirror.instructions[index]? = code.instructions[index]?.map .mirror :=
      Array.getElem?_map
    cases here : code.instructions[index]? with
    | none =>
        rw [here] at found
        rw [Code.effectAt_behind here, Code.effectAt_behind found]
        exact .inr image.flush
    | some instruction =>
        rw [here] at found
        rw [Code.effectAt_of_getElem? here, Code.effectAt_of_getElem? found]
        exact .inr (image.perform_mirror instruction)
  following := by
    intro a b index image
    have next (instruction : Instruction) (cell : UInt8) :
        code.mirror.next index cell instruction.mirror = code.next index cell instruction := by
      cases instruction <;> rfl
    have found : code.mirror.instructions[index]? = code.instructions[index]?.map .mirror :=
      Array.getElem?_map
    simp only [Code.following, found, Option.map_map, Function.comp_def, next,
      image.value IdealTape.symmetry_mirror]
  breaks _ broken := broken.elim

theorem Image.ends_mirror {a b after : Machine} {program : List Instruction}
    {result : Except Error Unit} (image : Image .mirror a b)
    (ended : a.Ends program result after) :
    ∃ after', b.Ends (program.map .mirror) result after' ∧ Image .mirror after after' :=
  ends_of_shadows (Code.load_mirror program) shadows_mirror image ended

/-- What two machines show is the same, seen from opposite sides. The streams are the same as a
whole: what was read and written, how often the output was flushed, and the replies still to
come. -/
structure Mirrors (a b : Machine) : Prop where
  position : b.tape.position = -a.tape.position
  cellAt : ∀ place, b.tape.cellAt place = a.tape.cellAt (-place)
  input : b.input = a.input
  output : b.output = a.output

theorem Image.mirrors {a b : Machine} (image : Image .mirror a b) : Mirrors a b where
  position := congrArg IdealTape.position image.tape
  cellAt := congrFun (congrArg IdealTape.cell image.tape)
  input := image.input
  output := image.output

/-- From a new tape, a program comes to its end if and only if its mirror image does. Then both have
the same result, and what they leave to be seen is the same from opposite sides. -/
theorem mirror_image {capacity : Nat} (pos : 0 < capacity) (input : Option InputStream)
    (output : Option OutputStream) (program : List Instruction) :
    let machine : Machine := ⟨.blank capacity pos, input, output⟩
    ((∃ result after, machine.Ends program result after) ↔
      ∃ result after, machine.Ends (program.map .mirror) result after) ∧
    ∀ result after result' after', machine.Ends program result after →
      machine.Ends (program.map .mirror) result' after' →
      result = result' ∧ Mirrors after after' := by
  intro machine
  have image : Image .mirror machine machine := by
    refine ⟨?_, rfl, rfl⟩
    rw [Tape.ideal_blank]
    rfl
  refine ⟨⟨?_, ?_⟩, ?_⟩
  · rintro ⟨result, after, ended⟩
    obtain ⟨after', ended', -⟩ := image.ends_mirror ended
    exact ⟨result, after', ended'⟩
  · rintro ⟨result, after, ended⟩
    obtain ⟨after', ended', -⟩ := image.ends_mirror ended
    have twice : (program.map Instruction.mirror).map Instruction.mirror = program := by
      simp [Function.comp_def, Instruction.mirror_mirror]
    exact ⟨result, after', twice ▸ ended'⟩
  · intro result after result' after' ended ended'
    obtain ⟨found, foundEnds, image'⟩ := image.ends_mirror ended
    obtain ⟨same, rfl⟩ := ends_unique foundEnds ended'
    exact ⟨same, image'.mirrors⟩

/-- The theorem for a program that walks to the left as far as the input takes it, and then grows
its tape on the right. -/
theorem mirror_image_walk :
    0 < 2 ∧
      let program : List Instruction := [.input ⟨0, 0⟩, .loopStart ⟨1, 1⟩, .act .left 3 ⟨2, 4⟩,
        .input ⟨5, 5⟩, .loopEnd ⟨6, 6⟩, .act .right 20 ⟨7, 26⟩, .output ⟨27, 27⟩]
      let machine : Machine := ⟨.blank 2 (by decide), some (.ofBytes [7, 8, 0]), some {}⟩
      ((∃ result after, machine.Ends program result after) ↔
        ∃ result after, machine.Ends (program.map .mirror) result after) ∧
      ∀ result after result' after', machine.Ends program result after →
        machine.Ends (program.map .mirror) result' after' →
        result = result' ∧ Mirrors after after' :=
  ⟨by decide, mirror_image (by decide) _ _ _⟩

end Machine

end Brainfuck
