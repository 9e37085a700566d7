import Brainfuck.Proofs.RunLength.Form

/-!
Blocks that are too much for a count. Collapsing fails exactly when some maximal block of an action
adds up to more than a count can hold, and then for the first such block, at the first instruction
with which its sum is too much. Merging a block pair by pair could also refuse two instructions that
are not of one action; since a block is of one symbol, this never happens (`collapse_overflow`).
-/

namespace Brainfuck.RunLength

/-! ### Where a sum is too much -/

/-- The block is of an action, and its counts add up to more than a count can hold. -/
structure Overlong (block : List Instruction) : Prop where
  action : ∃ action, Uniform (.act action) block
  exceeds : 4294967295 < total block

/-- The first overlong block of a program is of this action. The span is the hull of the block's
instructions up to the first one with which their counts add up to more than a count can hold. -/
inductive OverflowsAt (program : List Instruction) : Action → Span → Prop where
  | intro {action : Action} {span : Span} {before after : List (List Instruction)}
      {start rest : List Instruction} {next : Instruction}
      (cut : MaximalBlocks program (before ++ (start ++ next :: rest) :: after))
      (first : ∀ block ∈ before, ¬ Overlong block)
      (uniform : Uniform (.act action) (start ++ next :: rest))
      (fits : total start ≤ 4294967295) (exceeds : 4294967295 < total (start ++ [next]))
      (hull : Hull (start ++ [next]) span) : OverflowsAt program action span

theorem lt_size_iff {n : Nat} : n < UInt32.size ↔ n ≤ 4294967295 :=
  Nat.lt_succ_iff

theorem size_le_iff {n : Nat} : UInt32.size ≤ n ↔ 4294967295 < n :=
  Nat.succ_le_iff

/-- Exactly the blocks that are not overlong can be merged. -/
theorem exists_mergeBlock_iff {symbol : Symbol} {block : List Instruction}
    (uniform : Uniform symbol block) :
    (∃ group, mergeBlock block = .ok group) ↔ ¬ Overlong block := by
  constructor
  · rintro ⟨group, merged⟩ ⟨⟨action, isAction⟩, exceeds⟩
    have fits := fits_of_mergeBlock isAction merged
    exact absurd exceeds (Nat.not_lt.mpr (lt_size_iff.mp fits))
  · intro short
    cases isAction : symbol.isAction with
    | false => exact ⟨block, mergeBlock_of_alike uniform.alike isAction⟩
    | true =>
        cases symbol with
        | act action =>
            obtain ⟨span, hull⟩ := exists_hull uniform.nonempty
            have fits : total block < UInt32.size := by
              rw [lt_size_iff, ← Nat.not_lt]
              exact fun exceeds => short ⟨⟨action, uniform⟩, exceeds⟩
            exact ⟨_, mergeBlock_of_fits uniform hull fits⟩
        | _ => cases isAction

/-- A block is refused at the first instruction with which its sum is too much. -/
theorem exists_of_mergeBlock_error {symbol : Symbol} {block : List Instruction} {e : Error}
    (uniform : Uniform symbol block) (refused : mergeBlock block = .error e) :
    ∃ action start next rest span, block = start ++ next :: rest ∧
      Uniform (.act action) block ∧ total start ≤ 4294967295 ∧
      4294967295 < total (start ++ [next]) ∧ Hull (start ++ [next]) span ∧
      e = .runLengthOverflow (Symbol.act action).char span := by
  have long : Overlong block := by
    by_contra short
    obtain ⟨group, merged⟩ := (exists_mergeBlock_iff uniform).mpr short
    rw [merged] at refused
    cases refused
  obtain ⟨action, isAction⟩ := long.action
  obtain ⟨start, next, rest, rfl, fits, overflow⟩ := exists_overflow (size_le_iff.mpr long.exceeds)
  obtain ⟨span, hull⟩ : ∃ span, Hull (start ++ [next]) span := exists_hull (by simp)
  rw [mergeBlock_of_overflow isAction hull fits overflow] at refused
  cases refused
  exact ⟨action, start, next, rest, span, rfl, isAction, lt_size_iff.mp fits,
    size_le_iff.mp overflow, hull, rfl⟩

/-! ### Collapsing -/

theorem exists_of_collapse_error {program : List Instruction} {e : Error}
    (failed : collapse program = .error e) :
    ∃ before block after, blocks program = before ++ block :: after ∧
      (∀ b ∈ before, ∃ group, mergeBlock b = .ok group) ∧ mergeBlock block = .error e := by
  apply exists_of_mapM_error
  unfold collapse at failed
  cases merged : (blocks program).mapM mergeBlock with
  | ok groups =>
      rw [merged] at failed
      cases failed
  | error e' =>
      rw [merged] at failed
      cases failed
      rfl

/-- Collapsing fails exactly for the programs with an overlong block. -/
theorem exists_collapse_error_iff {program : List Instruction} :
    (∃ e, collapse program = .error e) ↔
      ∃ cut, MaximalBlocks program cut ∧ ∃ block ∈ cut, Overlong block := by
  simp only [maximalBlocks_iff, exists_eq_left]
  constructor
  · rintro ⟨e, failed⟩
    obtain ⟨before, block, after, cut, -, refused⟩ := exists_of_collapse_error failed
    have member : block ∈ blocks program := by
      rw [cut]
      exact List.mem_append_right _ List.mem_cons_self
    obtain ⟨symbol, uniform⟩ := exists_uniform_of_mem_blocks member
    refine ⟨block, member, ?_⟩
    by_contra short
    obtain ⟨group, merged⟩ := (exists_mergeBlock_iff uniform).mpr short
    rw [merged] at refused
    cases refused
  · rintro ⟨block, member, long⟩
    obtain ⟨symbol, uniform⟩ := exists_uniform_of_mem_blocks member
    cases collapsed : collapse program with
    | error e => exact ⟨e, rfl⟩
    | ok shorter =>
        obtain ⟨groups, merged, -⟩ := collapse_eq_ok_iff.mp collapsed
        have each := exists_mapM_ok_iff.mp ⟨groups, mapM_eq_ok_iff.mpr merged⟩
        exact absurd long ((exists_mergeBlock_iff uniform).mp (each block member))

/-- Collapsing fails where a sum is too much, and nowhere else. -/
theorem collapse_eq_error_iff {program : List Instruction} {e : Error} :
    collapse program = .error e ↔ ∃ action span, OverflowsAt program action span ∧
      e = .runLengthOverflow (Symbol.act action).char span := by
  constructor
  · intro failed
    obtain ⟨before, block, after, cut, fine, refused⟩ := exists_of_collapse_error failed
    have uniform : ∀ b ∈ before ++ block :: after, ∃ symbol, Uniform symbol b := by
      rw [← cut]
      exact fun b member => exists_uniform_of_mem_blocks member
    obtain ⟨symbol, alike⟩ := uniform block (List.mem_append_right _ List.mem_cons_self)
    obtain ⟨action, start, next, rest, span, rfl, isAction, fits, exceeds, hull, rfl⟩ :=
      exists_of_mergeBlock_error alike refused
    refine ⟨action, span, .intro (maximalBlocks_iff.mpr cut.symm) ?_ isAction fits exceeds hull,
      rfl⟩
    intro b member
    obtain ⟨symbol, alike⟩ := uniform b (List.mem_append_left _ member)
    exact (exists_mergeBlock_iff alike).mp (fine b member)
  · rintro ⟨action, span, ⟨cut, first, uniform, fits, exceeds, hull⟩, rfl⟩
    have isCut := maximalBlocks_iff.mp cut
    refine collapse_of_error isCut.symm ?_
      (mergeBlock_of_overflow uniform hull (lt_size_iff.mpr fits) (size_le_iff.mpr exceeds))
    intro b member
    obtain ⟨symbol, alike⟩ : ∃ symbol, Uniform symbol b := by
      apply exists_uniform_of_mem_blocks
      rw [← isCut]
      exact List.mem_append_left _ member
    exact (exists_mergeBlock_iff alike).mpr (first b member)

/-! ### Merging pair by pair -/

/-- The refusal of two instructions that are not of one action. -/
def cannotMerge (a b : Instruction) : Error :=
  .custom s!"Cannot merge '{a.symbol.char}' with '{b.symbol.char}'"

example : (cannotMerge (.act .add 1 ⟨0, 0⟩) (.input ⟨1, 1⟩)).message =
    "Cannot merge '+' with ','" := by
  decide

/-- Two neighbours as one instruction. The sum of their counts is looked at before their symbols. -/
def mergePair (a b : Instruction) : Except Error Instruction :=
  let span := a.span.cover b.span
  if a.count.toNat + b.count.toNat < UInt32.size then
    match a, b with
    | .act action m _, .act other n _ =>
        if action = other then .ok (.act action (m + n) span) else .error (cannotMerge a b)
    | a, b => .error (cannotMerge a b)
  else .error (.runLengthOverflow a.symbol.char span)

/-- A block merged pair by pair. Behind a failure the rest of the block is gone through in vain. -/
def mergeInPairs : List Instruction → Except Error (List Instruction)
  | [] => .ok []
  | first :: rest =>
      if first.isAction then do
        let merged ← rest.foldl (fun merged next => do mergePair (← merged) next) (.ok first)
        return [merged]
      else .ok (first :: rest)

/-- The program with every block merged pair by pair. -/
def collapseInPairs (program : List Instruction) : Except Error (List Instruction) := do
  return (← (blocks program).mapM mergeInPairs).flatten

/-- Carrying a failure through the rest of a list is stopping at it. -/
theorem foldl_bind {σ ι ε : Type} (f : σ → ι → Except ε σ) (items : List ι) (s : Except ε σ) :
    items.foldl (fun s i => do f (← s) i) s = s >>= items.foldlM f := by
  induction items generalizing s with
  | nil => exact (bind_pure s).symm
  | cons i rest ih =>
      rw [List.foldl_cons, ih, bind_assoc]
      rfl

/-- A sum as the instruction that it stands for. -/
def Sum.instruction (action : Action) (sum : Sum) : Instruction :=
  .act action sum.count sum.span

theorem mergePair_act (action : Action) (sum : Sum) (count : UInt32) (span : Span) :
    mergePair (sum.instruction action) (.act action count span) =
      (sum.add action (.act action count span)).map (Sum.instruction action) := by
  by_cases fits : sum.count.toNat + count.toNat < UInt32.size
  · have added : sum.add action (.act action count span) =
        .ok ⟨sum.count + count, sum.span.cover span⟩ := if_pos fits
    rw [added]
    exact (if_pos fits).trans (if_pos rfl)
  · have refused : sum.add action (.act action count span) =
        .error (.runLengthOverflow (Symbol.act action).char (sum.span.cover span)) := if_neg fits
    rw [refused]
    exact if_neg fits

/-- In a block of one action all pairs can be merged, and merging them is adding up. -/
theorem foldlM_mergePair {action : Action} {block : List Instruction}
    (alike : ∀ i ∈ block, i.symbol = .act action) (sum : Sum) :
    block.foldlM mergePair (sum.instruction action) =
      (block.foldlM (Sum.add action) sum).map (Sum.instruction action) := by
  induction block generalizing sum with
  | nil => rfl
  | cons next rest ih =>
      have same := alike next List.mem_cons_self
      cases next with
      | act other count span =>
          cases same
          rw [List.foldlM_cons, List.foldlM_cons, mergePair_act]
          cases sum.add action (.act action count span) with
          | error e => rfl
          | ok more => exact ih (fun i member => alike i (List.mem_cons_of_mem _ member)) more
      | _ => cases same

theorem mergeInPairs_eq {symbol : Symbol} {block : List Instruction}
    (uniform : Uniform symbol block) : mergeInPairs block = mergeBlock block := by
  obtain ⟨first, rest, rfl⟩ := List.exists_cons_of_ne_nil uniform.nonempty
  have alike : ∀ i ∈ rest, i.symbol = symbol :=
    fun i member => uniform.alike i (List.mem_cons_of_mem _ member)
  have same := uniform.alike first List.mem_cons_self
  cases first with
  | act action count span =>
      cases same
      have merged : mergeInPairs (.act action count span :: rest) = do
          let merged ← rest.foldl (fun merged next => do mergePair (← merged) next)
            (.ok (.act action count span))
          return [merged] := rfl
      have pairs : rest.foldlM mergePair (.act action count span) =
          (rest.foldlM (Sum.add action) ⟨count, span⟩).map (Sum.instruction action) :=
        foldlM_mergePair alike ⟨count, span⟩
      rw [merged, foldl_bind, mergeBlock_act]
      change (rest.foldlM mergePair (.act action count span) >>= _) = _
      rw [pairs]
      cases rest.foldlM (Sum.add action) ⟨count, span⟩ <;> rfl
  | _ => rfl

/-- No pair is ever refused for its symbols. -/
theorem collapseInPairs_eq (program : List Instruction) :
    collapseInPairs program = collapse program := by
  have same : (blocks program).mapM mergeInPairs = (blocks program).mapM mergeBlock := by
    apply mapM_congr
    intro block member
    obtain ⟨symbol, uniform⟩ := exists_uniform_of_mem_blocks member
    exact mergeInPairs_eq uniform
  rw [collapseInPairs, same, collapse]

/-- Collapsing fails exactly when some maximal block of an action adds up to more than a count can
hold. The failure names the action of the first such block and the hull of its instructions up to
the first one with which the sum is too much, and there is no other failure. In particular merging
the blocks pair by pair has the same result, and never refuses a pair for its symbols. -/
theorem collapse_overflow (program : List Instruction) :
    ((∃ e, collapse program = .error e) ↔
      ∃ cut, MaximalBlocks program cut ∧ ∃ block ∈ cut, Overlong block) ∧
    (∀ e, collapse program = .error e ↔ ∃ action span, OverflowsAt program action span ∧
      e = .runLengthOverflow (Symbol.act action).char span) ∧
    collapseInPairs program = collapse program ∧
    ∀ text, collapseInPairs program ≠ .error (.custom text) := by
  refine ⟨exists_collapse_error_iff, fun e => collapse_eq_error_iff, collapseInPairs_eq program, ?_⟩
  intro text refused
  rw [collapseInPairs_eq, collapse_eq_error_iff] at refused
  obtain ⟨action, span, -, same⟩ := refused
  cases same

/-- The theorem at a program whose second block is too much from its third instruction on, with a
span out of order behind that place. -/
theorem collapse_overflow_third :
    let program : List Instruction := [.act .right 7 ⟨0, 6⟩, .act .add 4294967295 ⟨9, 12⟩,
      .act .add 0 ⟨8, 8⟩, .act .add 1 ⟨13, 13⟩, .act .add 1 ⟨2, 40⟩, .output ⟨41, 41⟩]
    collapse program = .error (.runLengthOverflow '+' ⟨8, 13⟩) ∧
      OverflowsAt program .add ⟨8, 13⟩ := by
  intro program
  have failed : collapse program = .error (.runLengthOverflow '+' ⟨8, 13⟩) := rfl
  obtain ⟨action, span, overflows, same⟩ := ((collapse_overflow program).2.1 _).mp failed
  cases action <;> cases same
  exact ⟨failed, overflows⟩

end Brainfuck.RunLength
