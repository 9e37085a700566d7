import Brainfuck.Proofs.RunLength.Blocks
import Brainfuck.Proofs.Source.Marks

/-!
What a run becomes. The blocks of a program that has just been read are the maximal runs of equal
symbols in its source. A run of an action becomes one instruction, which counts the run's symbols
and spans from the first to the last of them, unless there are more than a count can hold; then the
run is refused at the first symbol too many. Every other run stays one instruction per symbol. So
the first run that is too long decides how collapsing fails, and without one collapsing leaves what
each run becomes (`collapse_marks_of_tooLong`, `collapse_marks`).
-/

namespace Brainfuck.RunLength

open Source (Mark)

/-- The maximal runs of equal symbols among some marks, in order. -/
def runs (ms : List Mark) : List (List Mark) :=
  ms.splitBy fun a b => a.symbol == b.symbol

/-- Whether a run of an action has more symbols than a count can hold. -/
def tooLong (run : List Mark) : Bool :=
  run.any (·.symbol.isAction) && decide (4294967295 < run.length)

/-- What is left of a run: one instruction for a run of an action, and otherwise one for each
symbol. -/
def merged : List Mark → List Instruction
  | [] => []
  | first :: rest =>
      if first.symbol.isAction then
        let last := (first :: rest).getLast (List.cons_ne_nil first rest)
        [.ofSymbol first.symbol (.ofNat (rest.length + 1)) ⟨first.offset, last.offset⟩]
      else (first :: rest).map Mark.instruction

theorem flatten_runs (ms : List Mark) : (runs ms).flatten = ms :=
  List.flatten_splitBy ..

theorem blocks_marks (ms : List Mark) :
    blocks (ms.map Mark.instruction) = (runs ms).map (List.map Mark.instruction) := by
  have same : (fun a b : Mark => a.instruction.symbol == b.instruction.symbol) =
      fun a b => a.symbol == b.symbol := by
    funext a b
    rw [Mark.symbol_instruction, Mark.symbol_instruction]
  rw [blocks, splitBy_map, same, runs]

/-! ### One run -/

/-- The marks of a run are one symbol at increasing offsets. -/
theorem exists_offsets_of_mem_runs {ms run : List Mark}
    (ordered : ms.Pairwise fun a b => a.offset < b.offset) (member : run ∈ runs ms) :
    ∃ symbol first rest, run = (first :: rest).map (Mark.mk symbol) ∧
      (first :: rest).Pairwise (· < ·) := by
  have isBlock : run.map Mark.instruction ∈ blocks (ms.map Mark.instruction) := by
    rw [blocks_marks]
    exact List.mem_map_of_mem member
  obtain ⟨symbol, nonempty, alike⟩ := exists_uniform_of_mem_blocks isBlock
  have symbols : ∀ mark ∈ run, mark.symbol = symbol := by
    intro mark inside
    rw [← Mark.symbol_instruction]
    exact alike _ (List.mem_map_of_mem inside)
  have increasing : (run.map Mark.offset).Pairwise (· < ·) := by
    rw [List.pairwise_map]
    rw [← flatten_runs ms] at ordered
    exact ordered.sublist (List.sublist_flatten_of_mem member)
  have offsets : run = (run.map Mark.offset).map (Mark.mk symbol) := by
    conv => left; rw [← List.map_id run]
    rw [List.map_map]
    refine List.map_congr_left fun mark inside => ?_
    rw [← symbols mark inside]
    rfl
  cases run with
  | nil => exact absurd rfl nonempty
  | cons first rest => exact ⟨symbol, first.offset, rest.map Mark.offset, offsets, increasing⟩

section Units

variable {symbol : Symbol} {action : Action} {first last : Nat} {rest before after : List Nat}

theorem count_unit (offset : Nat) : (Instruction.unit symbol offset).count = 1 := by
  cases symbol <;> rfl

theorem total_units (offsets : List Nat) :
    total (offsets.map (Instruction.unit symbol)) = offsets.length := by
  induction offsets with
  | nil => rfl
  | cons offset rest ih =>
      rw [List.map_cons, total_cons, count_unit, ih, List.length_cons, Nat.add_comm]
      rfl

/-- Places in order span from the first to the last. -/
theorem extent_units (increasing : (first :: rest).Pairwise (· < ·)) :
    extent (.single first) (rest.map (Instruction.unit symbol)) =
      ⟨first, (first :: rest).getLast (List.cons_ne_nil first rest)⟩ := by
  -- What is covered so far keeps its start, and its stop is the latest place.
  suffices general : ∀ start stop, start ≤ stop → (stop :: rest).Pairwise (· < ·) →
      extent ⟨start, stop⟩ (rest.map (Instruction.unit symbol)) =
        ⟨start, (stop :: rest).getLast (List.cons_ne_nil stop rest)⟩ from
    general first first (Nat.le_refl first) increasing
  clear increasing
  induction rest with
  | nil => exact fun start stop le increasing => rfl
  | cons next rest ih =>
      intro start stop le increasing
      obtain ⟨lt, increasing⟩ := List.pairwise_cons.mp increasing
      have before : stop < next := lt next List.mem_cons_self
      have covered : Span.cover ⟨start, stop⟩ (Instruction.unit symbol next).span =
          ⟨start, next⟩ := by
        rw [Instruction.unit, Instruction.span_ofSymbol, Span.cover, Span.single]
        congr 1
        · exact Nat.min_eq_left (Nat.le_of_lt (Nat.lt_of_le_of_lt le before))
        · exact Nat.max_eq_right (Nat.le_of_lt before)
      rw [extent, List.map_cons, List.foldl_cons, covered, List.getLast_cons_cons]
      exact ih start next (Nat.le_of_lt (Nat.lt_of_le_of_lt le before)) increasing

/-- A sum that fits counts all symbols. -/
theorem sum_units (increasing : (first :: rest).Pairwise (· < ·))
    (fits : rest.length + 1 < UInt32.size) :
    (rest.map (Instruction.unit (.act action))).foldlM (Sum.add action) ⟨1, .single first⟩ =
      .ok ⟨.ofNat (rest.length + 1),
        ⟨first, (first :: rest).getLast (List.cons_ne_nil first rest)⟩⟩ := by
  have one : (1 : UInt32).toNat = 1 := rfl
  rw [foldlM_add_of_fits (by rw [one, total_units]; omega), one, total_units,
    extent_units increasing, Nat.add_comm]

/-- A sum that does not fit fails at the first symbol too many. -/
theorem sum_units_of_overflow
    (increasing : (first :: (before ++ last :: after)).Pairwise (· < ·))
    (full : before.length + 2 = UInt32.size) :
    ((before ++ last :: after).map (Instruction.unit (.act action))).foldlM (Sum.add action)
        ⟨1, .single first⟩ =
      .error (.runLengthOverflow (Symbol.act action).char ⟨first, last⟩) := by
  have one : (1 : UInt32).toNat = 1 := rfl
  have upToLast : (first :: (before ++ [last])).Pairwise (· < ·) := by
    refine increasing.sublist ?_
    rw [List.append_cons before last after]
    exact (List.sublist_append_left _ after).cons_cons first
  rw [List.map_append, List.map_cons,
    foldlM_add_of_overflow (by rw [one, total_units]; omega)
      (by rw [one, total_units, count_unit, one]; omega),
    ← List.map_singleton, ← List.map_append, extent_units upToLast, List.getLast_cons (by simp),
    List.getLast_concat]

theorem mergeBlock_units :
    mergeBlock ((first :: rest).map (Instruction.unit (.act action))) = do
      let sum ← (rest.map (Instruction.unit (.act action))).foldlM (Sum.add action)
        ⟨1, .single first⟩
      return [.act action sum.count sum.span] :=
  rfl

theorem tooLong_units : tooLong ((first :: rest).map (Mark.mk symbol)) =
    (symbol.isAction && decide (4294967295 < rest.length + 1)) := by
  rw [tooLong, List.length_map, List.length_cons]
  cases isAction : symbol.isAction <;> simp [isAction]

end Units

/-- What is left of a run that is not too long. The symbols of an action are counted, and fit; those
of another symbol are kept. -/
inductive Remains : List Mark → List Instruction → Prop where
  | counted {first : Nat} {rest : List Nat} (action : Action)
      (increasing : (first :: rest).Pairwise (· < ·)) (fits : rest.length + 1 < UInt32.size) :
      Remains ((first :: rest).map (Mark.mk (.act action)))
        [.act action (.ofNat (rest.length + 1))
          ⟨first, (first :: rest).getLast (List.cons_ne_nil first rest)⟩]
  | kept {symbol : Symbol} (first : Nat) (rest : List Nat) (other : symbol.isAction = false) :
      Remains ((first :: rest).map (Mark.mk symbol))
        (((first :: rest).map (Mark.mk symbol)).map Mark.instruction)

section Runs

variable {ms run : List Mark}

theorem remains_merged (ordered : ms.Pairwise fun a b => a.offset < b.offset)
    (member : run ∈ runs ms) (fits : tooLong run = false) : Remains run (merged run) := by
  obtain ⟨symbol, first, rest, rfl, increasing⟩ := exists_offsets_of_mem_runs ordered member
  cases isAction : symbol.isAction with
  | false =>
      rw [List.map_cons, merged, if_neg (by simp [isAction]), ← List.map_cons]
      exact .kept first rest isAction
  | true =>
      cases symbol with
      | act action =>
          have last : ((first :: rest).map (Mark.mk (.act action))).getLast (by simp) =
              ⟨.act action, (first :: rest).getLast (List.cons_ne_nil first rest)⟩ :=
            List.getLast_map (by simp)
          rw [tooLong_units] at fits
          have short := of_decide_eq_false fits
          have counted := Remains.counted action increasing (by change _ < 4294967296; omega)
          simp only [List.map_cons] at last counted ⊢
          rw [merged, last, List.length_map]
          exact counted
      | _ => cases isAction

/-- A run that is not too long merges to what is left of it. -/
theorem mergeBlock_run (ordered : ms.Pairwise fun a b => a.offset < b.offset)
    (member : run ∈ runs ms) (fits : tooLong run = false) :
    mergeBlock (run.map Mark.instruction) = .ok (merged run) := by
  have remains := remains_merged ordered member fits
  generalize merged run = group at remains
  cases remains with
  | @counted first rest action increasing within =>
      rw [List.map_map]
      change mergeBlock ((first :: rest).map (Instruction.unit (.act action))) = _
      rw [mergeBlock_units, sum_units increasing within]
      rfl
  | kept first rest other =>
      apply mergeBlock_of_not_isAction
      rw [Mark.symbol_instruction]
      exact other

/-- A run that is too long is refused at the first symbol too many. -/
theorem mergeBlock_run_of_tooLong (ordered : ms.Pairwise fun a b => a.offset < b.offset)
    (member : run ∈ runs ms) (long : tooLong run = true) :
    ∃ first last, run[0]? = some first ∧ run[4294967295]? = some last ∧
      mergeBlock (run.map Mark.instruction) =
        .error (.runLengthOverflow first.symbol.char ⟨first.offset, last.offset⟩) := by
  obtain ⟨symbol, first, rest, rfl, increasing⟩ := exists_offsets_of_mem_runs ordered member
  rw [tooLong_units] at long
  cases symbol with
  | act action =>
      have behind : 4294967295 < rest.length + 1 := of_decide_eq_true long
      obtain ⟨last, here⟩ : ∃ last, rest[4294967294]? = some last := ⟨_, List.getElem?_eq_getElem
        (by omega)⟩
      refine ⟨⟨.act action, first⟩, ⟨.act action, last⟩, rfl, ?_, ?_⟩
      · rw [List.getElem?_map, List.getElem?_cons_succ, here]
        rfl
      · obtain ⟨before, after, rfl, length⟩ := split_of_getElem? here
        rw [List.map_map]
        change mergeBlock ((first :: (before ++ last :: after)).map
          (Instruction.unit (.act action))) = _
        rw [mergeBlock_units, sum_units_of_overflow increasing (by rw [length])]
        rfl
  | _ => cases long

/-! ### All runs -/

/-- The first run that is too long. -/
def tooLong? (ms : List Mark) : Option (List Mark) :=
  (runs ms).find? tooLong

/-- Without a run that is too long, collapsing leaves what is left of each run. -/
theorem collapse_marks (ordered : ms.Pairwise fun a b => a.offset < b.offset)
    (fits : tooLong? ms = none) :
    collapse (ms.map Mark.instruction) = .ok ((runs ms).flatMap merged) := by
  rw [collapse_eq_ok_iff]
  refine ⟨(runs ms).map merged, ?_, rfl⟩
  rw [blocks_marks, List.forall₂_map_left_iff, List.forall₂_map_right_iff, List.forall₂_same]
  intro run member
  have short := List.find?_eq_none.mp fits run member
  exact mergeBlock_run ordered member (Bool.eq_false_iff.mpr short)

/-- The first run that is too long is where collapsing fails. -/
theorem collapse_marks_of_tooLong (ordered : ms.Pairwise fun a b => a.offset < b.offset)
    (long : tooLong? ms = some run) :
    ∃ first last, run[0]? = some first ∧ run[4294967295]? = some last ∧
      collapse (ms.map Mark.instruction) =
        .error (.runLengthOverflow first.symbol.char ⟨first.offset, last.offset⟩) := by
  obtain ⟨isLong, before, after, cut, earlier⟩ := List.find?_eq_some_iff_append.mp long
  have inside : ∀ other, other = run ∨ other ∈ before → other ∈ runs ms := by
    intro other place
    rw [cut]
    rcases place with rfl | place
    · exact List.mem_append_right _ List.mem_cons_self
    · exact List.mem_append_left _ place
  obtain ⟨first, last, isFirst, isLast, failed⟩ :=
    mergeBlock_run_of_tooLong ordered (inside run (.inl rfl)) isLong
  have blocks_cut : blocks (ms.map Mark.instruction) = before.map (List.map Mark.instruction) ++
      run.map Mark.instruction :: after.map (List.map Mark.instruction) := by
    rw [blocks_marks, cut, List.map_append, List.map_cons]
  refine ⟨first, last, isFirst, isLast, collapse_of_error blocks_cut ?_ failed⟩
  intro block member
  obtain ⟨other, place, rfl⟩ := List.mem_map.mp member
  have short : tooLong other = false := by simpa using earlier other place
  exact ⟨_, mergeBlock_run ordered (inside other (.inr place)) short⟩

end Runs

end Brainfuck.RunLength
