import Brainfuck.Proofs.RunLength.Blocks
import Mathlib.Data.List.Induction
import Mathlib.Order.Bounds.Basic

/-!
The sum of a block in closed form. The hull of a block reaches from the least start in it to the
greatest stop. A block of an action merges to one instruction, which has the exact sum of the counts
and the hull, as long as that sum fits (`mergeBlock_of_fits`). Otherwise the block has one place
where the sum stops to fit, and is refused there with the hull of what was added up
(`mergeBlock_of_overflow`).
-/

namespace Brainfuck.RunLength

/-! ### Hulls -/

/-- The span reaches from the least start in a block to the greatest stop in it. -/
structure Hull (block : List Instruction) (span : Span) : Prop where
  start : IsLeast {place | ∃ i ∈ block, i.span.start = place} span.start
  stop : IsGreatest {place | ∃ i ∈ block, i.span.stop = place} span.stop

theorem hull_singleton (i : Instruction) : Hull [i] i.span := by
  have one (f : Instruction → Nat) : {place | ∃ j ∈ [i], f j = place} = {f i} := by
    ext place
    simp [eq_comm]
  constructor
  · rw [one fun j => j.span.start]
    exact isLeast_singleton
  · rw [one fun j => j.span.stop]
    exact isGreatest_singleton

theorem Hull.append {a b : List Instruction} {p q : Span} (first : Hull a p) (second : Hull b q) :
    Hull (a ++ b) (p.cover q) := by
  have both (f : Instruction → Nat) : {place | ∃ i ∈ a ++ b, f i = place} =
      {place | ∃ i ∈ a, f i = place} ∪ {place | ∃ i ∈ b, f i = place} := by
    ext place
    simp [or_and_right, exists_or]
  constructor
  · rw [both fun i => i.span.start]
    exact first.start.union second.start
  · rw [both fun i => i.span.stop]
    exact first.stop.union second.stop

theorem Hull.unique {block : List Instruction} {p q : Span} (first : Hull block p)
    (second : Hull block q) : p = q := by
  cases p
  cases q
  congr 1
  · exact first.start.unique second.start
  · exact first.stop.unique second.stop

theorem hull_extent (first : Instruction) (rest : List Instruction) :
    Hull (first :: rest) (extent first.span rest) := by
  -- What is covered so far is the hull of what has been gone through so far.
  suffices general : ∀ front span, Hull front span → Hull (front ++ rest) (extent span rest) from
    general [first] first.span (hull_singleton first)
  induction rest with
  | nil =>
      intro front span hull
      rwa [List.append_nil]
  | cons next rest ih =>
      intro front span hull
      rw [List.append_cons]
      exact ih _ _ (hull.append (hull_singleton next))

theorem exists_hull {block : List Instruction} (nonempty : block ≠ []) :
    ∃ span, Hull block span := by
  obtain ⟨first, rest, rfl⟩ := List.exists_cons_of_ne_nil nonempty
  exact ⟨_, hull_extent first rest⟩

/-! ### Totals -/

theorem total_append (a b : List Instruction) : total (a ++ b) = total a + total b := by
  induction a with
  | nil => exact (Nat.zero_add _).symm
  | cons i rest ih => rw [List.cons_append, total_cons, total_cons, ih, Nat.add_assoc]

theorem total_singleton (i : Instruction) : total [i] = i.count.toNat :=
  Nat.add_zero _

/-- A sum that does not fit has a first instruction with which it does not. -/
theorem exists_overflow {block : List Instruction} (long : UInt32.size ≤ total block) :
    ∃ start next rest, block = start ++ next :: rest ∧ total start < UInt32.size ∧
      UInt32.size ≤ total (start ++ [next]) := by
  induction block using List.reverseRecOn with
  | nil => exact absurd long (by decide)
  | append_singleton front last ih =>
      by_cases fits : total front < UInt32.size
      · exact ⟨front, last, [], rfl, fits, long⟩
      · obtain ⟨start, next, rest, rfl, fits, overflow⟩ := ih (Nat.not_lt.mp fits)
        exact ⟨start, next, rest ++ [last], by simp, fits, overflow⟩

/-! ### Merging -/

section Merging

variable {symbol : Symbol} {action : Action} {block start rest : List Instruction}
  {first next : Instruction} {span : Span}

theorem Uniform.eq_act (uniform : Uniform (.act action) (first :: rest)) :
    ∃ count span, first = .act action count span := by
  have same := uniform.alike first List.mem_cons_self
  cases first with
  | act other count span =>
      cases same
      exact ⟨count, span, rfl⟩
  | _ => cases same

theorem mergeBlock_act {count : UInt32} (rest : List Instruction) :
    mergeBlock (.act action count span :: rest) = do
      let sum ← rest.foldlM (Sum.add action) ⟨count, span⟩
      return [.act action sum.count sum.span] :=
  rfl

/-- A block whose counts add up to no more than a count can hold becomes one instruction. -/
theorem mergeBlock_of_fits (uniform : Uniform (.act action) block) (hull : Hull block span)
    (fits : total block < UInt32.size) :
    mergeBlock block = .ok [.act action (.ofNat (total block)) span] := by
  obtain ⟨first, rest, rfl⟩ := List.exists_cons_of_ne_nil uniform.nonempty
  obtain ⟨count, place, rfl⟩ := uniform.eq_act
  have sum : rest.foldlM (Sum.add action) ⟨count, place⟩ =
      .ok ⟨.ofNat (count.toNat + total rest), extent place rest⟩ := foldlM_add_of_fits fits
  rw [mergeBlock_act, sum, hull.unique (hull_extent _ rest)]
  rfl

/-- A block is refused at the first instruction with which the sum does not fit. -/
theorem mergeBlock_of_overflow (uniform : Uniform (.act action) (start ++ next :: rest))
    (hull : Hull (start ++ [next]) span) (fits : total start < UInt32.size)
    (overflow : UInt32.size ≤ total (start ++ [next])) :
    mergeBlock (start ++ next :: rest) =
      .error (.runLengthOverflow (Symbol.act action).char span) := by
  rw [total_append, total_singleton] at overflow
  cases start with
  | nil =>
      -- One count always fits.
      have small : next.count.toNat < UInt32.size := next.count.toNat_lt_size
      exact absurd overflow (by change ¬ UInt32.size ≤ 0 + _; omega)
  | cons first before =>
      rw [List.cons_append] at uniform hull ⊢
      obtain ⟨count, place, rfl⟩ := uniform.eq_act
      have sum : (before ++ next :: rest).foldlM (Sum.add action) ⟨count, place⟩ =
          .error (.runLengthOverflow (Symbol.act action).char
            (extent place (before ++ [next]))) := foldlM_add_of_overflow fits overflow
      rw [mergeBlock_act, sum, hull.unique (hull_extent _ (before ++ [next]))]
      rfl

end Merging

end Brainfuck.RunLength
