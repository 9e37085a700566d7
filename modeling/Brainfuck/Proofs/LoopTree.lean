import Brainfuck.Loops
import Brainfuck.Proofs.Nest

/-!
Programs as trees. A command is an instruction that is no bracket, and a loop tree is a program
whose brackets have become structure. A program is that of a tree exactly when its brackets match
(`balanced_iff_exists_tree`), which counts them, and exactly when a scan with the stack of open
loops comes to its end without one (`check_eq_ok_iff`).
-/

namespace Brainfuck

/-! ### Folds that may fail -/

section Folds

variable {σ ε ι : Type} {f : σ → ι → Except ε σ} {s t : σ}

theorem foldlM_cons_of_ok {i : ι} (rest : List ι) (step : f s i = .ok t) :
    (i :: rest).foldlM f s = rest.foldlM f t := by
  rw [List.foldlM_cons, step]
  rfl

theorem foldlM_append_of_ok {first : List ι} (rest : List ι) (steps : first.foldlM f s = .ok t) :
    (first ++ rest).foldlM f s = rest.foldlM f t := by
  rw [List.foldlM_append, steps]
  rfl

/-- A fold seen through a view of its states is the fold of what each step looks like there. -/
theorem map_foldlM {τ κ : Type} {g : τ → κ → Except ε τ} (view : σ → τ) (item : ι → κ)
    (seen : ∀ s i, (f s i).map view = g (view s) (item i)) (items : List ι) (s : σ) :
    (items.foldlM f s).map view = (items.map item).foldlM g (view s) := by
  induction items generalizing s with
  | nil => rfl
  | cons i rest ih =>
      rw [List.foldlM_cons, List.map_cons, List.foldlM_cons, ← seen s i]
      cases f s i with
      | error e => rfl
      | ok next => exact ih next

end Folds

/-- A list falls into what is before one of its items, the item and what is behind it. -/
theorem split_of_getElem? {α : Type} {items : List α} {i : Nat} {item : α}
    (here : items[i]? = some item) :
    ∃ before after, items = before ++ item :: after ∧ before.length = i := by
  obtain ⟨lt, rfl⟩ := List.getElem?_eq_some_iff.mp here
  refine ⟨items.take i, items.drop (i + 1), ?_, List.length_take_of_le (Nat.le_of_lt lt)⟩
  rw [← List.drop_eq_getElem_cons lt, List.take_append_drop]

/-! ### Trees -/

/-- An instruction that is no bracket. -/
inductive Command where
  | act (action : Action) (count : UInt32) (span : Span)
  | output (span : Span)
  | input (span : Span)
deriving DecidableEq, Repr

/-- The instruction of a command. -/
def Command.instruction : Command → Instruction
  | .act action count span => .act action count span
  | .output span => .output span
  | .input span => .input span

/-- An instruction as a piece of a text with loops. -/
def Instruction.piece : Instruction → Piece Command Span Span
  | .act action count span => .leaf (.act action count span)
  | .output span => .leaf (.output span)
  | .input span => .leaf (.input span)
  | .loopStart span => .opening span
  | .loopEnd span => .closing span

/-- The instruction of a piece. -/
def Piece.instruction : Piece Command Span Span → Instruction
  | .leaf command => command.instruction
  | .opening span => .loopStart span
  | .closing span => .loopEnd span

@[simp] theorem Instruction.instruction_piece (i : Instruction) : i.piece.instruction = i := by
  cases i <;> rfl

@[simp] theorem Piece.piece_instruction (p : Piece Command Span Span) :
    p.instruction.piece = p := by
  cases p with
  | leaf command => cases command <;> rfl
  | opening span => rfl
  | closing span => rfl

theorem Instruction.map_instruction_map_piece (program : List Instruction) :
    (program.map Instruction.piece).map Piece.instruction = program := by
  simp [Function.comp_def]

/-- A program with its loops as subtrees. -/
abbrev LoopTree := Nest Command Span Span

namespace LoopTree

/-- The program of a tree. -/
def instructions (tree : LoopTree) : List Instruction :=
  tree.pieces.map Piece.instruction

@[simp] theorem instructions_nil : instructions .nil = [] :=
  rfl

@[simp] theorem instructions_leaf (command : Command) (rest : LoopTree) :
    instructions (.leaf command rest) = command.instruction :: instructions rest :=
  rfl

@[simp] theorem instructions_loop (start stop : Span) (body rest : LoopTree) :
    instructions (.loop start stop body rest) =
      .loopStart start :: (instructions body ++ .loopEnd stop :: instructions rest) := by
  simp [instructions, Nest.pieces, Piece.instruction]

theorem instructions_append (first second : LoopTree) :
    instructions (first.append second) = instructions first ++ instructions second := by
  rw [instructions, Nest.pieces_append, List.map_append, instructions, instructions]

@[simp] theorem length_instructions (tree : LoopTree) : tree.instructions.length = tree.size := by
  simp [instructions, Nest.size]

theorem map_piece_instructions (tree : LoopTree) :
    tree.instructions.map Instruction.piece = tree.pieces := by
  simp [instructions, Function.comp_def]

theorem instructions_eq_iff {tree : LoopTree} {program : List Instruction} :
    tree.instructions = program ↔ tree.pieces = program.map Instruction.piece := by
  constructor
  · rintro rfl
    exact (map_piece_instructions tree).symm
  · intro h
    rw [instructions, h, Instruction.map_instruction_map_piece]

theorem instructions_of_cut? {program : List Instruction} {tree : LoopTree}
    (cut : Nest.cut? (program.map Instruction.piece) = some (tree, [])) :
    tree.instructions = program := by
  rw [instructions_eq_iff, Nest.pieces_of_cut? cut]
  exact (List.append_nil _).symm

theorem instructions_injective : Function.Injective instructions := by
  intro a b h
  apply Nest.pieces_injective
  rw [← map_piece_instructions a, ← map_piece_instructions b, h]

end LoopTree

namespace Loops

/-! ### Matching by counting -/

/-- The number of loop starts. -/
def starts (program : List Instruction) : Nat :=
  (program.map Instruction.symbol).count .loopStart

/-- The number of loop ends. -/
def stops (program : List Instruction) : Nat :=
  (program.map Instruction.symbol).count .loopEnd

/-- The loop brackets match: no beginning of the program has more ends than starts, and the whole
program has as many of both. -/
structure Balanced (program : List Instruction) : Prop where
  beginnings : ∀ n, stops (program.take n) ≤ starts (program.take n)
  total : stops program = starts program

/-- Beginnings as long as the program are the program itself, so finitely many need a look. -/
instance (program : List Instruction) : Decidable (Balanced program) :=
  decidable_of_iff
    ((∀ n < program.length, stops (program.take n) ≤ starts (program.take n)) ∧
      stops program = starts program)
    ⟨fun ⟨beginnings, total⟩ => ⟨fun n => by
        by_cases short : n < program.length
        · exact beginnings n short
        · rw [List.take_of_length_le (Nat.not_lt.mp short)]
          exact Nat.le_of_eq total, total⟩,
      fun balanced => ⟨fun n _ => balanced.beginnings n, balanced.total⟩⟩

@[simp] theorem starts_nil : starts [] = 0 :=
  rfl

@[simp] theorem stops_nil : stops [] = 0 :=
  rfl

@[simp] theorem starts_command (command : Command) (rest : List Instruction) :
    starts (command.instruction :: rest) = starts rest := by
  cases command <;> rfl

@[simp] theorem stops_command (command : Command) (rest : List Instruction) :
    stops (command.instruction :: rest) = stops rest := by
  cases command <;> rfl

@[simp] theorem starts_loopStart (span : Span) (rest : List Instruction) :
    starts (.loopStart span :: rest) = starts rest + 1 :=
  List.count_cons_self

@[simp] theorem stops_loopStart (span : Span) (rest : List Instruction) :
    stops (.loopStart span :: rest) = stops rest :=
  rfl

@[simp] theorem starts_loopEnd (span : Span) (rest : List Instruction) :
    starts (.loopEnd span :: rest) = starts rest :=
  rfl

@[simp] theorem stops_loopEnd (span : Span) (rest : List Instruction) :
    stops (.loopEnd span :: rest) = stops rest + 1 :=
  List.count_cons_self

@[simp] theorem starts_append (a b : List Instruction) : starts (a ++ b) = starts a + starts b := by
  simp [starts]

@[simp] theorem stops_append (a b : List Instruction) : stops (a ++ b) = stops a + stops b := by
  simp [stops]

/-- Pieces that close `depth` more loops than they start, and at no place more than that, are cut at
that many unmatched loop ends. -/
theorem exists_cut?_of_counts (ps : List (Piece Command Span Span)) (depth : Nat)
    (beginnings : ∀ n, stops ((ps.map Piece.instruction).take n) ≤
      starts ((ps.map Piece.instruction).take n) + depth)
    (total : stops (ps.map Piece.instruction) = starts (ps.map Piece.instruction) + depth) :
    ∃ first later, Nest.cut? ps = some (first, later) ∧ later.length = depth := by
  induction ps generalizing depth with
  | nil => exact ⟨.nil, [], rfl, by simpa [starts, stops] using total⟩
  | cons piece rest ih =>
      cases piece with
      | leaf command =>
          obtain ⟨first, later, cut, length⟩ := ih depth
            (fun n => by simpa [Piece.instruction] using beginnings (n + 1))
            (by simpa [Piece.instruction] using total)
          exact ⟨.leaf command first, later, by simp only [Nest.cut?, cut], length⟩
      | opening span =>
          obtain ⟨body, later, cut, length⟩ := ih (depth + 1)
            (fun n => by have := beginnings (n + 1); simp [Piece.instruction] at this; omega)
            (by simp [Piece.instruction] at total; omega)
          obtain ⟨⟨stop, after⟩, later, rfl⟩ := List.exists_cons_of_length_eq_add_one length
          exact ⟨.loop span stop body after, later, by simp only [Nest.cut?, cut],
            Nat.succ.inj length⟩
      | closing span =>
          -- The end at the front closes a loop from outside, so there is one.
          have outside : 1 ≤ depth := by
            simpa [Piece.instruction, Instruction.symbol, starts, stops] using beginnings 1
          obtain ⟨first, later, cut, length⟩ := ih (depth - 1)
            (fun n => by have := beginnings (n + 1); simp [Piece.instruction] at this; omega)
            (by simp [Piece.instruction] at total; omega)
          exact ⟨.nil, (span, first) :: later, by simp only [Nest.cut?, cut],
            by simp only [List.length_cons]; omega⟩

theorem exists_tree_of_balanced {program : List Instruction} (balanced : Balanced program) :
    ∃ tree : LoopTree, tree.instructions = program := by
  have read := Instruction.map_instruction_map_piece program
  obtain ⟨tree, later, cut, length⟩ := exists_cut?_of_counts (program.map Instruction.piece) 0
    (fun n => by rw [read]; exact balanced.beginnings n) (by rw [read]; exact balanced.total)
  obtain rfl := List.eq_nil_of_length_eq_zero length
  exact ⟨tree, LoopTree.instructions_of_cut? cut⟩

theorem balanced_instructions (tree : LoopTree) : Balanced tree.instructions := by
  induction tree with
  | nil => exact ⟨fun n => by simp [starts, stops], rfl⟩
  | leaf command rest ih =>
      refine ⟨fun n => ?_, by simpa using ih.total⟩
      cases n with
      | zero => simp [starts, stops]
      | succ n => simpa using ih.beginnings n
  | loop start stop body rest ihBody ihRest =>
      refine ⟨fun n => ?_, ?_⟩
      · cases n with
        | zero => simp [starts, stops]
        | succ n =>
            rw [LoopTree.instructions_loop, List.take_succ_cons, List.take_append]
            have before := ihBody.beginnings n
            cases h : n - (LoopTree.instructions body).length with
            | zero =>
                simp
                omega
            | succ m =>
                have whole : (LoopTree.instructions body).take n = LoopTree.instructions body :=
                  List.take_of_length_le (by omega)
                have after := ihRest.beginnings m
                have total := ihBody.total
                simp [whole]
                omega
      · have body := ihBody.total
        have rest := ihRest.total
        simp
        omega

/-- Brackets match exactly in the programs of trees. -/
theorem balanced_iff_exists_tree {program : List Instruction} :
    Balanced program ↔ ∃ tree : LoopTree, tree.instructions = program := by
  constructor
  · exact exists_tree_of_balanced
  · rintro ⟨tree, rfl⟩
    exact balanced_instructions tree

/-! ### Matching by scanning -/

/-- The open loops, innermost first, after one more instruction. -/
def openStep : List Span → Instruction → Except Error (List Span)
  | opened, .loopStart span => .ok (span :: opened)
  | [], .loopEnd span => .error (.unbalancedLoop span)
  | _ :: outer, .loopEnd _ => .ok outer
  | opened, _ => .ok opened

/-- The verdict on the open loops at the end of a program. -/
def closed : List Span → Except Error Unit
  | [] => .ok ()
  | span :: _ => .error (.unbalancedLoop span)

/-- The verdict on the brackets of a program. -/
def check (program : List Instruction) : Except Error Unit :=
  program.foldlM openStep [] >>= closed

@[simp] theorem openStep_command (opened : List Span) (command : Command) :
    openStep opened command.instruction = .ok opened := by
  cases command <;> cases opened <;> rfl

theorem openStep_instructions (tree : LoopTree) (opened : List Span) :
    tree.instructions.foldlM openStep opened = .ok opened := by
  induction tree generalizing opened with
  | nil => rfl
  | leaf command rest ih =>
      rw [LoopTree.instructions_leaf, foldlM_cons_of_ok _ (openStep_command opened command)]
      exact ih opened
  | loop start stop body rest ihBody ihRest =>
      rw [LoopTree.instructions_loop, foldlM_cons_of_ok (t := start :: opened) _ rfl,
        foldlM_append_of_ok _ (ihBody _), foldlM_cons_of_ok (t := opened) _ rfl]
      exact ihRest opened

/-- Pieces that bring a scan to its end with no open loop are cut at one unmatched loop end for each
loop that was open before. -/
theorem exists_cut?_of_openStep (ps : List (Piece Command Span Span)) (opened : List Span)
    (ended : (ps.map Piece.instruction).foldlM openStep opened = .ok []) :
    ∃ first later, Nest.cut? ps = some (first, later) ∧ later.length = opened.length := by
  induction ps generalizing opened with
  | nil =>
      cases ended
      exact ⟨.nil, [], rfl, rfl⟩
  | cons piece rest ih =>
      rw [List.map_cons, List.foldlM_cons] at ended
      cases piece with
      | leaf command =>
          rw [Piece.instruction, openStep_command] at ended
          obtain ⟨first, later, cut, length⟩ := ih opened ended
          exact ⟨.leaf command first, later, by simp only [Nest.cut?, cut], length⟩
      | opening span =>
          obtain ⟨body, later, cut, length⟩ := ih (span :: opened) ended
          obtain ⟨⟨stop, after⟩, later, rfl⟩ := List.exists_cons_of_length_eq_add_one length
          exact ⟨.loop span stop body after, later, by simp only [Nest.cut?, cut],
            Nat.succ.inj length⟩
      | closing span =>
          cases opened with
          | nil => cases ended
          | cons inner outer =>
              obtain ⟨first, later, cut, length⟩ := ih outer ended
              exact ⟨.nil, (span, first) :: later, by simp only [Nest.cut?, cut],
                congrArg Nat.succ length⟩

/-- A scan approves exactly the programs of trees. -/
theorem check_eq_ok_iff {program : List Instruction} :
    check program = .ok () ↔ ∃ tree : LoopTree, tree.instructions = program := by
  constructor
  · intro approved
    cases scan : program.foldlM openStep [] with
    | error e =>
        rw [check, scan] at approved
        cases approved
    | ok opened =>
        rw [check, scan] at approved
        cases opened with
        | cons span outer => cases approved
        | nil =>
            obtain ⟨tree, later, cut, length⟩ :=
              exists_cut?_of_openStep (program.map Instruction.piece) []
                (by rw [Instruction.map_instruction_map_piece]; exact scan)
            obtain rfl := List.eq_nil_of_length_eq_zero length
            exact ⟨tree, LoopTree.instructions_of_cut? cut⟩
  · rintro ⟨tree, rfl⟩
    unfold check
    rw [openStep_instructions]
    rfl

end Loops

end Brainfuck
