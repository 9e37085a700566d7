import Brainfuck.Proofs.Emission.Listing

/-!
The lines of a generated text. Around the lines of the statements they are always the same, but for
the one with the length of a new tape (`lines_of_generate`). What is left of a statement's line
without its leading spaces does not depend on the indentation width.
-/

namespace Brainfuck.Emission

open Text (unlines unindentLine)

/-! ### The lines of statements -/

theorem indented_inj {spaces spaces' : Nat} {text : String}
    (same : indented spaces text = indented spaces' text) : spaces = spaces' := by
  have lengths := congrArg (List.length ∘ String.toList) same
  simp only [Function.comp_apply, indented, String.toList_append, String.toList_ofList,
    List.length_append, List.length_replicate] at lengths
  omega

/-- The first statement of a generated text is indented by the width itself. -/
theorem lineLevel_of_generate {layout : Layout} {first : Instruction} {rest : List Instruction}
    {source : String} (generated : layout.generate (first :: rest) = .ok source) :
    lineLevel 0 first = 1 := by
  cases first with
  | loopEnd span => cases generated
  | _ => rfl

theorem newline_notMem_linesFrom (width depth : Nat) (program : List Instruction) :
    ∀ line ∈ linesFrom width depth program, '\n' ∉ line.toList := by
  induction program generalizing depth with
  | nil => exact fun _ => List.not_mem_nil.elim
  | cons instruction rest ih =>
      intro line member
      rcases List.mem_cons.mp member with rfl | member
      · apply newline_notMem_of_readLine?
        exact (readLine?_indented ..).trans (readLine?_lineText instruction)
      · exact ih _ line member

theorem map_unindentLine_linesFrom (width depth : Nat) (program : List Instruction) :
    ((linesFrom width depth program).map String.toList).map unindentLine =
      program.map fun instruction => unindentLine (lineText instruction).toList := by
  induction program generalizing depth with
  | nil => rfl
  | cons instruction rest ih =>
      rw [linesFrom, List.map_cons, List.map_cons, ih, unindentLine_indented, List.map_cons]

/-! ### The whole text -/

namespace Frame

/-- The lines before the one that holds the length of a new tape. -/
def upper : List String :=
  headers ++ fields ++ growth ++ opening

/-- The line that holds the length of a new tape. -/
def capacityLine (tapeSize : Nat) : String :=
  s!"        capacity = {tapeSize};"

/-- The lines from there to the statements. -/
def lower : List String :=
  construction ++ cellAccess ++ moves ++ changes ++ streams ++ entry

theorem toList_capacityLine (tapeSize : Nat) :
    (capacityLine tapeSize).toList =
      "        capacity = ".toList ++ (Nat.toDigits 10 tapeSize ++ ";".toList) := by
  have digits : (toString tapeSize).toList = Nat.toDigits 10 tapeSize := Nat.toList_repr
  rw [← digits, ← List.append_assoc, ← String.toList_append, ← String.toList_append]
  rfl

theorem newline_notMem_capacityLine (tapeSize : Nat) : '\n' ∉ (capacityLine tapeSize).toList := by
  have digits : '\n' ∉ Nat.toDigits 10 tapeSize :=
    fun member => absurd (isDigit_toDigits tapeSize _ member) (by decide)
  rw [toList_capacityLine, List.mem_append, List.mem_append, not_or, not_or]
  exact ⟨by decide, digits, by decide⟩

theorem capacityLine_injective {tapeSize tapeSize' : Nat}
    (same : unindentLine (capacityLine tapeSize).toList =
      unindentLine (capacityLine tapeSize').toList) : tapeSize = tapeSize' := by
  have text (tapeSize : Nat) : unindentLine (capacityLine tapeSize).toList =
      "capacity = ".toList ++ (Nat.toDigits 10 tapeSize ++ ";".toList) := by
    rw [toList_capacityLine]
    rfl
  rw [text, text] at same
  have digits := List.append_cancel_right (List.append_cancel_left same)
  calc tapeSize = Nat.ofDigitChars 10 (Nat.toDigits 10 tapeSize) 0 :=
        Nat.ofDigitChars_ten_toDigits.symm
    _ = Nat.ofDigitChars 10 (Nat.toDigits 10 tapeSize') 0 := by rw [digits]
    _ = tapeSize' := Nat.ofDigitChars_ten_toDigits

end Frame

theorem Frame.head_eq (tapeSize : Nat) :
    head tapeSize = unlines (upper ++ (capacityLine tapeSize :: lower)) := by
  rw [head, upper, lower]
  simp only [List.append_assoc, List.cons_append, List.nil_append]
  rfl

/-- The lines of a generated text: fixed ones, the one with the length of a new tape, fixed ones
again, and those of the program, with fixed ones behind them. -/
theorem lines_of_generate {layout : Layout} {program : List Instruction} {source : String}
    (generated : layout.generate program = .ok source) :
    Text.lines source = Frame.upper.flatMap Text.lines ++
      ((Frame.capacityLine layout.tapeSize).toList :: (Frame.lower.flatMap Text.lines ++
        ((linesFrom layout.indentWidth 0 program).map String.toList ++
          Text.lines Frame.foot))) := by
  cases written : layout.statements program with
  | error e =>
      rw [Layout.generate, written] at generated
      cases generated
  | ok lines =>
      rw [Layout.generate, written] at generated
      have whole : layout.enclose lines = source := Except.ok.inj generated
      have capacity : Text.lines (Frame.capacityLine layout.tapeSize) = _ :=
        Text.lines_of_newline_notMem (Frame.newline_notMem_capacityLine layout.tapeSize)
      rw [← whole, Layout.enclose, toList_statements written, Frame.head_eq, ← Text.unlines_append,
        Text.lines_unlines_append, List.flatMap_append, List.flatMap_append, List.flatMap_cons,
        capacity, Text.flatMap_lines (newline_notMem_linesFrom _ _ _)]
      simp only [List.append_assoc, List.cons_append, List.nil_append]

end Brainfuck.Emission
