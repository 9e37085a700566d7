import Brainfuck.Compilation
import Brainfuck.Proofs.Pass.Selection
import Brainfuck.Proofs.Rejection
import Brainfuck.Proofs.RunLength.Runs

/-!
What becomes of a text. A selection with an unknown piece is refused, whatever the text. After that,
if there are passes to run, a run of an action that is too long for a count is refused, whatever the
brackets. After that, brackets that do not match are refused. Every other text compiles, to the
fixed text around one line per instruction, and how many instructions there are can be seen from
the symbols of the text alone (`compile_verdict`).
-/

namespace Brainfuck

open Emission (Frame.head Frame.foot readLine? linePiece)
open Loops (Balanced Culprit)
open RunLength (runs merged tooLong tooLong?)
open Source (Mark marks parse ofText strip)

/-! ### Symbols -/

namespace Source

/-- The symbols of a text: the characters that are left without its comments. -/
def symbols (text : String) : List Symbol :=
  (strip text).toList.filterMap Symbol.ofChar?

theorem map_symbol_marks (text : String) : (marks text).map Mark.symbol = symbols text := by
  rw [symbols, toList_strip_eq_marks, List.filterMap_map]
  induction marks text with
  | nil => rfl
  | cons mark rest ih =>
      rw [List.map_cons, ih, List.filterMap_cons, Function.comp_apply, Symbol.ofChar?_char]

end Source

/-- The loop brackets among some symbols match: no beginning has more ends than starts, and there
are as many of both. -/
structure Matched (symbols : List Symbol) : Prop where
  beginnings : ∀ n, (symbols.take n).count .loopEnd ≤ (symbols.take n).count .loopStart
  total : symbols.count .loopEnd = symbols.count .loopStart

theorem balanced_iff_matched {program : List Instruction} :
    Balanced program ↔ Matched (program.map Instruction.symbol) := by
  constructor
  · intro balanced
    refine ⟨fun n => ?_, balanced.total⟩
    rw [← List.map_take]
    exact balanced.beginnings n
  · intro matched
    refine ⟨fun n => ?_, matched.total⟩
    have fewer := matched.beginnings n
    rw [← List.map_take] at fewer
    exact fewer

/-- Symbols match when instructions for them do, wherever these stand. -/
theorem balanced_units_iff {symbols : List Symbol} :
    Balanced (symbols.map (Instruction.unit · 0)) ↔ Matched symbols := by
  have same : (Instruction.symbol ∘ (Instruction.unit · 0)) = id :=
    funext fun symbol => Instruction.symbol_ofSymbol ..
  rw [balanced_iff_matched, List.map_map, same, List.map_id]

instance (symbols : List Symbol) : Decidable (Matched symbols) :=
  decidable_of_iff (Balanced (symbols.map (Instruction.unit · 0))) balanced_units_iff

/-- One item for each maximal run of an action, with the length of the run, and one for each other
symbol. -/
def condense (symbols : List Symbol) : List (Symbol × Nat) :=
  (symbols.splitBy (· == ·)).flatMap fun
    | .act action :: rest => [(.act action, rest.length + 1)]
    | run => run.map (·, 1)

/-- What an instruction stands for: a symbol, and how often it is repeated. -/
def Instruction.item (i : Instruction) : Symbol × Nat :=
  (i.symbol, i.count.toNat)

theorem Source.item_instruction (mark : Mark) : mark.instruction.item = (mark.symbol, 1) := by
  rw [Instruction.item, Mark.symbol_instruction]
  exact congrArg (mark.symbol, UInt32.toNat ·) (RunLength.count_unit mark.offset)

theorem map_item_instruction (ms : List Mark) :
    (ms.map Mark.instruction).map Instruction.item = (ms.map Mark.symbol).map (·, 1) := by
  rw [List.map_map, List.map_map]
  exact List.map_congr_left fun mark _ => Source.item_instruction mark

/-- What is left of runs that are not too long is one item for each run of an action, and one for
each other symbol. -/
theorem map_item_merged {ms : List Mark} (ordered : ms.Pairwise fun a b => a.offset < b.offset)
    (fits : tooLong? ms = none) :
    ((runs ms).flatMap merged).map Instruction.item = condense (ms.map Mark.symbol) := by
  have cut : (ms.map Mark.symbol).splitBy (· == ·) = (runs ms).map (List.map Mark.symbol) :=
    RunLength.splitBy_map ..
  rw [condense, cut, List.flatMap_map, List.map_flatMap]
  refine List.flatMap_congr fun run member => ?_
  have short := Bool.eq_false_iff.mpr (List.find?_eq_none.mp fits run member)
  have remains := RunLength.remains_merged ordered member short
  generalize merged run = group at remains
  cases remains with
  | @counted first rest action increasing within =>
      have count : (UInt32.ofNat (rest.length + 1)).toNat = rest.length + 1 :=
        UInt32.toNat_ofNat_of_lt' within
      rw [List.map_singleton, Instruction.item, Instruction.count, count, List.map_map,
        List.map_cons, ← List.length_map (Mark.symbol ∘ Mark.mk (.act action))]
      rfl
  | @kept symbol first rest other =>
      rw [map_item_instruction]
      cases symbol with
      | act action => cases other
      | _ => rfl

example : condense [.act .add, .act .add, .output, .output] =
    [(.act .add, 2), (.output, 1), (.output, 1)] := by
  decide

/-! ### Lines -/

/-- The text is one line, and reads as an instruction with this symbol and this count. -/
def IsLineOf (line : String) (item : Symbol × Nat) : Prop :=
  '\n' ∉ line.toList ∧
    ∃ i : Instruction, i.item = item ∧ readLine? line = some (linePiece i)

/-- A program with brackets that match is written in one line for each instruction. -/
theorem exists_lines_of_balanced {program : List Instruction} (balanced : Balanced program) :
    ∃ lines, Emission.Layout.generate {} program =
        .ok (Frame.head Tape.defaultCapacity ++ Text.unlines lines ++ Frame.foot) ∧
      List.Forall₂ IsLineOf lines (program.map Instruction.item) := by
  have approved := Emission.map_statements {} program
  rw [Loops.check_eq_ok_iff_balanced.mpr balanced] at approved
  cases written : Emission.Layout.statements {} program with
  | error e =>
      rw [written] at approved
      cases approved
  | ok lines =>
      refine ⟨lines.toList, by rw [Emission.Layout.generate, written]; rfl, ?_⟩
      have read := forall₂_of_mapM_eq_some (Emission.mapM_readLine?_statements written)
      rw [List.forall₂_map_right_iff] at read ⊢
      exact read.imp fun line i reads =>
        ⟨Emission.newline_notMem_of_readLine? reads, i, rfl, reads⟩

/-- What becomes of a program with the culprits of another one depends on the brackets of that
one. -/
theorem generate_verdict {program original : List Instruction}
    (same : ∀ span, Culprit program span ↔ Culprit original span) :
    if Matched (original.map Instruction.symbol) then
      ∃ lines, Emission.Layout.generate {} program =
          .ok (Frame.head Tape.defaultCapacity ++ Text.unlines lines ++ Frame.foot) ∧
        List.Forall₂ IsLineOf lines (program.map Instruction.item)
    else ∃ span, Culprit original span ∧
      Emission.Layout.generate {} program = .error (.unbalancedLoop span) := by
  by_cases matched : Matched (original.map Instruction.symbol)
  · rw [if_pos matched]
    apply exists_lines_of_balanced
    by_contra unbalanced
    obtain ⟨span, culprit⟩ := Loops.not_balanced_iff.mp unbalanced
    exact Loops.not_culprit_of_balanced (balanced_iff_matched.mpr matched) span
      ((same span).mp culprit)
  · rw [if_neg matched]
    rw [← balanced_iff_matched] at matched
    obtain ⟨span, culprit⟩ := Loops.not_balanced_iff.mp matched
    exact ⟨span, culprit, Emission.generate_eq_error_iff.mpr ⟨span, rfl, (same span).mpr culprit⟩⟩

/-! ### The verdict -/

section Stages

variable {source selection : String} {passes : List Pass}

theorem compile_of_select (selected : Pass.select selection = .ok passes) :
    compile source selection =
      Pass.runAll passes ((marks source).map Mark.instruction) >>= Emission.Layout.generate {} := by
  rw [compile, selected, ← Source.parse_ofText]
  rfl

theorem compile_of_runAll {program : List Instruction}
    (selected : Pass.select selection = .ok passes)
    (ran : Pass.runAll passes ((marks source).map Mark.instruction) = .ok program) :
    compile source selection = Emission.Layout.generate {} program := by
  rw [compile_of_select selected, ran]
  rfl

theorem compile_of_runAll_error {e : Error} (selected : Pass.select selection = .ok passes)
    (failed : Pass.runAll passes ((marks source).map Mark.instruction) = .error e) :
    compile source selection = .error e := by
  rw [compile_of_select selected, failed]
  rfl

end Stages

/-- What becomes of a text. The first piece of the selection that names no pass is reported. If the
selection can be read and has a pass, the first run of an action that is too long for a count is
reported, from its first symbol to the first one too many. Otherwise the text compiles if its
brackets match, to the text around one line per item: one item per symbol, or with a pass one per
run of an action and one per other symbol. If they do not match, the culprit is reported. -/
theorem compile_verdict (source selection : String) :
    match Pass.firstUnknown? selection with
    | some piece => compile source selection = .error (.unknownPass piece)
    | none => ∃ passes, Pass.select selection = .ok passes ∧
        match if passes.isEmpty then none else tooLong? (marks source) with
        | some run => ∃ first last, run[0]? = some first ∧ run[4294967295]? = some last ∧
            compile source selection =
              .error (.runLengthOverflow first.symbol.char ⟨first.offset, last.offset⟩)
        | none =>
            if Matched (Source.symbols source) then
              ∃ lines, compile source selection =
                  .ok (Frame.head Tape.defaultCapacity ++ Text.unlines lines ++ Frame.foot) ∧
                List.Forall₂ IsLineOf lines
                  (if passes.isEmpty then (Source.symbols source).map (·, 1)
                  else condense (Source.symbols source))
            else ∃ span, Culprit (parse (ofText source)) span ∧
              compile source selection = .error (.unbalancedLoop span) := by
  cases known : Pass.firstUnknown? selection with
  | some piece =>
      change compile source selection = .error (.unknownPass piece)
      rw [compile, Pass.select_of_unknown known]
      rfl
  | none =>
      have ordered := Source.pairwise_marks source
      have symbols : ((marks source).map Mark.instruction).map Instruction.symbol =
          Source.symbols source := by
        rw [← Source.map_symbol_marks, List.map_map]
        exact List.map_congr_left fun mark _ => Mark.symbol_instruction mark
      obtain ⟨count, selected, -⟩ := Pass.select_of_known known
      refine ⟨_, selected, ?_⟩
      rw [Source.parse_ofText]
      cases count with
      | zero =>
          have verdict := generate_verdict fun span =>
            Iff.refl (Culprit ((marks source).map Mark.instruction) span)
          rw [map_item_instruction, Source.map_symbol_marks, symbols] at verdict
          simp only [List.replicate_zero, List.isEmpty_nil, if_true]
          rwa [compile_of_runAll selected rfl]
      | succ count =>
          have nonempty : (List.replicate (count + 1) Pass.collapseRuns).isEmpty = false := rfl
          have run := Pass.runAll_replicate count ((marks source).map Mark.instruction)
          cases long : tooLong? (marks source) with
          | some overlong =>
              obtain ⟨first, last, isFirst, isLast, failed⟩ :=
                RunLength.collapse_marks_of_tooLong ordered long
              exact ⟨first, last, isFirst, isLast,
                compile_of_runAll_error selected (run.trans failed)⟩
          | none =>
              -- Collapsing keeps the culprit, so it is the brackets of the text that decide.
              have collapsed := RunLength.collapse_marks ordered long
              have verdict := generate_verdict (RunLength.culprit_collapse collapsed)
              rw [map_item_merged ordered long, Source.map_symbol_marks, symbols] at verdict
              simp only [nonempty, Bool.false_eq_true, if_false]
              rwa [compile_of_runAll selected (run.trans collapsed)]

end Brainfuck
