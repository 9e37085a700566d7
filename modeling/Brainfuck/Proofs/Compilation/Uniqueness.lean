import Brainfuck.Proofs.Compilation.Verdict
import Brainfuck.Proofs.Emission.Indentation

/-!
What a generated text says about its program. From the statement of a line one can read off what the
instruction stands for, and the statement says nothing else; so two texts are the same up to
indentation if and only if their tapes start with the same length and their programs have the same
symbols and counts (`generate_unique`).
-/

namespace Brainfuck.Emission

open Text (unindent unindentLine)

/-! ### One line -/

/-- What an instruction stands for whose line reads as this piece. -/
def item? : Piece Statement Unit Unit → Option (Symbol × Nat)
  | .leaf (.once .moveRight) => some (.act .right, 1)
  | .leaf (.once .moveLeft) => some (.act .left, 1)
  | .leaf (.once .increment) => some (.act .add, 1)
  | .leaf (.once .decrement) => some (.act .sub, 1)
  | .leaf (.repeated count .moveRight) => some (.act .right, count)
  | .leaf (.repeated count .moveLeft) => some (.act .left, count)
  | .leaf (.once (.add count)) => some (.act .add, count)
  | .leaf (.once (.subtract count)) => some (.act .sub, count)
  | .leaf (.once .output) => some (.output, 1)
  | .leaf (.once .input) => some (.input, 1)
  | .opening _ => some (.loopStart, 1)
  | .closing _ => some (.loopEnd, 1)
  | .leaf (.repeated _ _) => none

theorem item?_linePiece (instruction : Instruction) :
    item? (linePiece instruction) = some instruction.item := by
  cases instruction with
  | act action count span =>
      have piece : linePiece (.act action count span) =
        .leaf (commandStatement (.act action count span)) := rfl
      rw [piece, commandStatement]
      by_cases once : count = 1
      · subst once
        cases action <;> rfl
      · rw [if_neg once]
        cases action <;> rfl
  | _ => rfl

theorem lineText_ofSymbol (symbol : Symbol) (count : UInt32) (span span' : Span) :
    lineText (.ofSymbol symbol count span) = lineText (.ofSymbol symbol count span') := by
  cases symbol <;> rfl

theorem lineText_eq_of_item {i j : Instruction} (same : i.item = j.item) :
    lineText i = lineText j := by
  have symbol : i.symbol = j.symbol := congrArg Prod.fst same
  have count : i.count = j.count := UInt32.toNat_inj.mp (congrArg Prod.snd same)
  rw [← i.ofSymbol_symbol_count_span, ← j.ofSymbol_symbol_count_span, symbol, count,
    lineText_ofSymbol]

/-- The statement of a line shows what its instruction stands for, and nothing else. -/
theorem unindentLine_lineText_inj {i j : Instruction} :
    unindentLine (lineText i).toList = unindentLine (lineText j).toList ↔ i.item = j.item := by
  constructor
  · intro same
    have read := readLine?_congr same
    rw [readLine?_lineText, readLine?_lineText] at read
    have items := congrArg item? (Option.some.inj read)
    rw [item?_linePiece, item?_linePiece] at items
    exact Option.some.inj items
  · intro same
    rw [lineText_eq_of_item same]

/-! ### The whole text -/

theorem map_unindentLine_lineText_inj {xs ys : List Instruction} :
    (xs.map fun i => unindentLine (lineText i).toList) =
        (ys.map fun i => unindentLine (lineText i).toList) ↔
      xs.map Instruction.item = ys.map Instruction.item := by
  have pairwise {α : Type} (f : Instruction → α) :
      xs.map f = ys.map f ↔ List.Forall₂ (fun i j => f i = f j) xs ys := by
    rw [← List.forall₂_eq_eq_eq, List.forall₂_map_left_iff, List.forall₂_map_right_iff]
  simp only [pairwise, unindentLine_lineText_inj]

theorem unindent_generate_inj {first second : Layout} {xs ys : List Instruction}
    {source source' : String} (generated : first.generate xs = .ok source)
    (generated' : second.generate ys = .ok source') :
    unindent source = unindent source' ↔
      first.tapeSize = second.tapeSize ∧ xs.map Instruction.item = ys.map Instruction.item := by
  rw [Text.unindent_eq_iff, lines_of_generate generated, lines_of_generate generated']
  simp only [List.map_append, List.map_cons, List.append_cancel_left_eq, List.cons.injEq,
    List.append_cancel_right_eq, map_unindentLine_linesFrom, map_unindentLine_lineText_inj]
  constructor
  · rintro ⟨capacity, items⟩
    exact ⟨Frame.capacityLine_injective capacity, items⟩
  · rintro ⟨capacity, items⟩
    rw [capacity]
    exact ⟨rfl, items⟩

/-- The width is the number of spaces before the first statement. -/
theorem indentWidth_eq_of_generate {first second : Layout} {i j : Instruction}
    {xs ys : List Instruction} {source : String} (generated : first.generate (i :: xs) = .ok source)
    (generated' : second.generate (j :: ys) = .ok source) :
    first.indentWidth = second.indentWidth := by
  obtain ⟨tape, items⟩ := (unindent_generate_inj generated generated').mp rfl
  have item : i.item = j.item := (List.cons.inj items).1
  have same := (lines_of_generate generated).symm.trans (lines_of_generate generated')
  rw [tape, linesFrom, linesFrom, List.map_cons, List.map_cons, lineLevel_of_generate generated,
    lineLevel_of_generate generated', lineText_eq_of_item item] at same
  simp only [List.append_cancel_left_eq, List.cons_append, List.cons.injEq, true_and] at same
  have spaces := indented_inj (String.toList_inj.mp same.1)
  omega

/-- Two generated texts are the same up to indentation if and only if the tapes start with the same
length and the programs have the same symbols and counts. If they are the same as they stand, and
the programs are not empty, the indentation width is the same, too. -/
theorem generate_unique {first second : Layout} {xs ys : List Instruction}
    {source source' : String} (generated : first.generate xs = .ok source)
    (generated' : second.generate ys = .ok source') :
    (unindent source = unindent source' ↔
      first.tapeSize = second.tapeSize ∧ xs.map Instruction.item = ys.map Instruction.item) ∧
    (source = source' → xs ≠ [] → ys ≠ [] → first.indentWidth = second.indentWidth) := by
  refine ⟨unindent_generate_inj generated generated', ?_⟩
  intro same nonempty nonempty'
  obtain ⟨i, xs, rfl⟩ := List.exists_cons_of_ne_nil nonempty
  obtain ⟨j, ys, rfl⟩ := List.exists_cons_of_ne_nil nonempty'
  exact indentWidth_eq_of_generate generated (same ▸ generated')

/-- The theorem for a loop with a counted move in it, and two widths. The programs come from
different places, and there is a needless symbol between those of the second one. -/
theorem generate_unique_loop :
    let xs : List Instruction :=
      [.loopStart ⟨0, 0⟩, .act .left 3 ⟨1, 3⟩, .act .sub 1 ⟨4, 4⟩, .loopEnd ⟨5, 5⟩]
    let ys : List Instruction :=
      [.loopStart ⟨2, 2⟩, .act .left 3 ⟨3, 6⟩, .act .sub 1 ⟨8, 8⟩, .loopEnd ⟨9, 9⟩]
    let second : Layout := { indentWidth := 2 }
    ∃ source source', Layout.generate {} xs = .ok source ∧ second.generate ys = .ok source' ∧
      unindent source = unindent source' ∧ source ≠ source' := by
  intro xs ys second
  have generated : Layout.generate {} xs = .ok _ := rfl
  have generated' : second.generate ys = .ok _ := rfl
  obtain ⟨unique, width⟩ := generate_unique generated generated'
  refine ⟨_, _, generated, generated', unique.mpr ⟨rfl, rfl⟩, ?_⟩
  intro same
  cases width same (by decide) (by decide)

end Brainfuck.Emission
