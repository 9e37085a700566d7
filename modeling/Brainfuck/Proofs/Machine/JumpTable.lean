import Brainfuck.Machine
import Brainfuck.Proofs.LoopTree

/-!
The jump table of a program. It exists exactly when a scan approves the brackets, and it fails for
the same bracket (`map_jumps`). For the program of a tree it is read off the tree (`partners`), so
in the loaded code every loop stands as a slice whose two ends know each other (`Code.Holds`).
-/

namespace Brainfuck

namespace LoopTree

/-- The jump table of a tree that stands from `index` on. -/
def partners : Nat → LoopTree → List Nat
  | _, .nil => []
  | index, .leaf _ rest => index :: partners (index + 1) rest
  | index, .loop _ _ body rest =>
      (index + body.size + 1) ::
        (partners (index + 1) body ++ index :: partners (index + body.size + 2) rest)

@[simp] theorem length_partners (index : Nat) (tree : LoopTree) :
    (partners index tree).length = tree.size := by
  induction tree generalizing index with
  | nil => rfl
  | leaf command rest ih => simp [partners, ih]
  | loop start stop body rest ihBody ihRest =>
      simp [partners, ihBody, ihRest]
      omega

end LoopTree

namespace Loops

/-! ### Failure -/

/-- A scan without its table: only the open loops. -/
def Scan.opened (scan : Scan) : List Span :=
  scan.openLoops.map (·.2)

theorem map_opened_step (scan : Scan) (instruction : Instruction) (index : Nat) :
    (scan.step (instruction, index)).map Scan.opened = openStep scan.opened instruction := by
  obtain ⟨jumps, openLoops⟩ := scan
  cases instruction with
  | loopEnd span => cases openLoops <;> rfl
  | _ => cases openLoops <;> rfl

theorem map_opened_foldlM (program : List Instruction) (index : Nat) (scan : Scan) :
    ((program.zipIdx index).foldlM Scan.step scan).map Scan.opened =
      program.foldlM openStep scan.opened := by
  rw [map_foldlM Scan.opened Prod.fst fun scan i => map_opened_step scan i.1 i.2,
    List.zipIdx_map_fst]

/-- A jump table is made exactly for the programs that a scan approves, and refused for the same
bracket. -/
theorem map_jumps (program : List Instruction) :
    (jumps program).map (fun _ => ()) = check program := by
  have scanned := map_opened_foldlM program 0 ⟨Array.range program.length, []⟩
  change _ = program.foldlM openStep [] at scanned
  rw [jumps, check, ← scanned]
  cases program.zipIdx.foldlM Scan.step ⟨Array.range program.length, []⟩ with
  | error e => rfl
  | ok scan =>
      obtain ⟨table, openLoops⟩ := scan
      cases openLoops <;> rfl

theorem jumps_of_check_error {program : List Instruction} {e : Error}
    (refused : check program = .error e) : jumps program = .error e := by
  rw [← map_jumps] at refused
  cases h : jumps program with
  | error e' =>
      rw [h] at refused
      cases refused
      rfl
  | ok table =>
      rw [h] at refused
      cases refused

/-! ### The table of a tree -/

/-- The slice of a loop in a fresh table: the start, the body's slice, the end, and the rest. -/
theorem range'_loop (index body rest : Nat) :
    List.range' index (body + rest + 2) =
      index :: (List.range' (index + 1) body ++
        (index + body + 1) :: List.range' (index + body + 2) rest) := by
  rw [show body + rest + 2 = (body + (rest + 1)) + 1 by omega, List.range'_succ,
    ← List.range'_append_1, List.range'_succ, Nat.add_right_comm]

/-- A loop end and the innermost open loop become partners, whatever stands between them. -/
theorem step_loopEnd (before body after : List Nat) (start stop : Span)
    (openLoops : List (Nat × Span)) :
    Scan.step
        ⟨(before ++ before.length :: (body ++ (before.length + body.length + 1) :: after)).toArray,
          (before.length, start) :: openLoops⟩
        (.loopEnd stop, before.length + body.length + 1) =
      .ok ⟨(before ++ (before.length + body.length + 1) ::
        (body ++ before.length :: after)).toArray, openLoops⟩ := by
  simp [Scan.step, List.set_append_right, Nat.add_assoc]

/-- A scan over the program of a tree fills in the tree's slice of the table and changes nothing
else. -/
theorem foldlM_instructions (tree : LoopTree) (before after : List Nat)
    (openLoops : List (Nat × Span)) :
    (tree.instructions.zipIdx before.length).foldlM Scan.step
        ⟨(before ++ (List.range' before.length tree.size ++ after)).toArray, openLoops⟩ =
      .ok ⟨(before ++ (tree.partners before.length ++ after)).toArray, openLoops⟩ := by
  induction tree generalizing before after openLoops with
  | nil => rfl
  | leaf command rest ih =>
      have step (scan : Scan) : scan.step (command.instruction, before.length) = .ok scan := by
        cases command <;> rfl
      rw [LoopTree.instructions_leaf, List.zipIdx_cons, foldlM_cons_of_ok _ (step _)]
      simpa [List.range'_succ, LoopTree.partners] using
        ih (before ++ [before.length]) after openLoops
  | loop start stop body rest ihBody ihRest =>
      let close := before.length + body.size + 1
      let inside := LoopTree.partners (before.length + 1) body
      have inner := ihBody (before ++ [before.length])
        (close :: (List.range' (close + 1) rest.size ++ after))
        ((before.length, start) :: openLoops)
      have matched := step_loopEnd before inside (List.range' (close + 1) rest.size ++ after) start
        stop openLoops
      have outer := ihRest (before ++ close :: (inside ++ [before.length])) after openLoops
      simp only [List.append_assoc, List.cons_append, List.nil_append, List.length_append,
        List.length_cons, List.length_nil, LoopTree.length_partners, inside, close]
        at inner matched outer
      rw [LoopTree.instructions_loop, List.zipIdx_cons, foldlM_cons_of_ok _ rfl, List.zipIdx_append,
        Nest.size_loop, range'_loop, List.zipIdx_cons, LoopTree.length_instructions,
        Nat.add_right_comm before.length 1]
      simp only [List.append_assoc, List.cons_append, LoopTree.partners]
      rw [foldlM_append_of_ok _ inner, foldlM_cons_of_ok _ matched]
      exact outer

theorem jumps_instructions (tree : LoopTree) :
    jumps tree.instructions = .ok (tree.partners 0).toArray := by
  have scanned := foldlM_instructions tree [] [] []
  simp only [List.nil_append, List.append_nil, List.length_nil] at scanned
  rw [jumps, LoopTree.length_instructions, ← List.toArray_range, List.range_eq_range', scanned]
  rfl

end Loops

namespace Code

/-- The tree stands in the code from `index` on, and the table leads from each end of its loops to
the other. -/
def Holds (code : Code) : Nat → LoopTree → Prop
  | _, .nil => True
  | index, .leaf command rest =>
      code.instructions[index]? = some command.instruction ∧ Holds code (index + 1) rest
  | index, .loop start stop body rest =>
      code.instructions[index]? = some (.loopStart start) ∧
        code.jumps[index]? = some (index + body.size + 1) ∧
        Holds code (index + 1) body ∧
        code.instructions[index + body.size + 1]? = some (.loopEnd stop) ∧
        code.jumps[index + body.size + 1]? = some index ∧
        Holds code (index + body.size + 2) rest

section Parts

variable {code : Code} {index : Nat} {command : Command} {start stop : Span} {body rest : LoopTree}

theorem Holds.at_leaf (held : code.Holds index (.leaf command rest)) :
    code.instructions[index]? = some command.instruction :=
  held.1

theorem Holds.after_leaf (held : code.Holds index (.leaf command rest)) :
    code.Holds (index + 1) rest :=
  held.2

theorem Holds.in_loop (held : code.Holds index (.loop start stop body rest)) :
    code.Holds (index + 1) body :=
  held.2.2.1

theorem Holds.after_loop (held : code.Holds index (.loop start stop body rest)) :
    code.Holds (index + body.size + 2) rest :=
  held.2.2.2.2.2

end Parts

theorem getElem?_toArray_append {α : Type} {index : Nat} (first : List α) (x : α) (rest : List α)
    (length : first.length = index) : (first ++ x :: rest).toArray[index]? = some x := by
  simp [← length]

/-- Code and table that contain the slices of a tree hold it. -/
theorem holds_of_slices (tree : LoopTree) (before after : List Instruction) (front back : List Nat)
    (length : front.length = before.length) :
    Holds ⟨(before ++ (tree.instructions ++ after)).toArray,
      (front ++ (tree.partners before.length ++ back)).toArray⟩ before.length tree := by
  induction tree generalizing before after front back with
  | nil => trivial
  | leaf command rest ih =>
      have tail := ih (before ++ [command.instruction]) after (front ++ [before.length]) back
        (by simp [length])
      simp only [List.append_assoc, List.cons_append, List.nil_append, List.length_append,
        List.length_cons, List.length_nil] at tail
      exact ⟨getElem?_toArray_append _ _ _ rfl, tail⟩
  | loop start stop body rest ihBody ihRest =>
      let close := before.length + body.size + 1
      let inside := LoopTree.partners (before.length + 1) body
      let program := LoopTree.instructions body
      have inner := ihBody (before ++ [.loopStart start])
        (.loopEnd stop :: (LoopTree.instructions rest ++ after)) (front ++ [close])
        (before.length :: (LoopTree.partners (close + 1) rest ++ back)) (by simp [length])
      have outer := ihRest (before ++ .loopStart start :: (program ++ [.loopEnd stop])) after
        (front ++ close :: (inside ++ [before.length])) back (by simp [length, inside, program])
      have closing := getElem?_toArray_append (before ++ .loopStart start :: program)
        (.loopEnd stop) (LoopTree.instructions rest ++ after)
        (show _ = close by simp [program, close, Nat.add_assoc])
      have partner := getElem?_toArray_append (front ++ close :: inside) before.length
        (LoopTree.partners (close + 1) rest ++ back)
        (show _ = close by simp [inside, close, length, Nat.add_assoc])
      simp only [List.append_assoc, List.cons_append, List.nil_append, List.length_append,
        List.length_cons, List.length_nil, LoopTree.length_instructions, inside, close, program]
        at inner outer closing partner
      simp only [LoopTree.instructions_loop, LoopTree.partners, List.append_assoc, List.cons_append]
      exact ⟨getElem?_toArray_append _ _ _ rfl, getElem?_toArray_append _ _ _ length, inner,
        closing, partner, outer⟩

theorem load_instructions (tree : LoopTree) :
    load tree.instructions = .ok ⟨tree.instructions.toArray, (tree.partners 0).toArray⟩ := by
  rw [load, Loops.jumps_instructions]
  rfl

theorem holds_load (tree : LoopTree) :
    Holds ⟨tree.instructions.toArray, (tree.partners 0).toArray⟩ 0 tree := by
  simpa using holds_of_slices tree [] [] [] [] rfl

end Code

end Brainfuck
