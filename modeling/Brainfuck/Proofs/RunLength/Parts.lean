import Brainfuck.Proofs.RunLength.Form
import Mathlib.Logic.Relation

/-!
Collapsing a program in parts. A program can be collapsed exactly when its two halves can and what
is left of them can in turn, and the result is the same. The cut between the halves may go through a
block; the two pieces of the block are then summed on their own first, and sums and hulls do not
depend on that (`mergeBlock_append_iff`). So parts of a program may be replaced by what is left of
them wherever and in whatever order (`collapse_in_parts`).
-/

namespace Brainfuck.RunLength

/-! ### One block in two pieces -/

section Pieces

variable {symbol : Symbol} {action : Action} {a b block group : List Instruction} {span : Span}

theorem mergeBlock_eq_ok_iff_of_hull (uniform : Uniform (.act action) block)
    (hull : Hull block span) : mergeBlock block = .ok group ↔
      total block < UInt32.size ∧ group = [.act action (.ofNat (total block)) span] := by
  constructor
  · intro merged
    have fits := fits_of_mergeBlock uniform merged
    rw [mergeBlock_of_fits uniform hull fits] at merged
    exact ⟨fits, (Except.ok.inj merged).symm⟩
  · rintro ⟨fits, rfl⟩
    exact mergeBlock_of_fits uniform hull fits

/-- What is left of a possibly empty block has its symbol, and merging leaves it alone. -/
theorem mergeBlock_again (alike : ∀ i ∈ block, i.symbol = symbol)
    (merged : mergeBlock block = .ok group) :
    (∀ i ∈ group, i.symbol = symbol) ∧ mergeBlock group = .ok group := by
  cases block with
  | nil =>
      cases merged
      exact ⟨nofun, rfl⟩
  | cons first rest =>
      have uniform : Uniform symbol (first :: rest) := ⟨List.cons_ne_nil first rest, alike⟩
      obtain ⟨uniform, again⟩ := uniform.mergeBlock merged
      exact ⟨uniform.alike, again⟩

theorem alike_append (first : ∀ i ∈ a, i.symbol = symbol) (second : ∀ i ∈ b, i.symbol = symbol) :
    ∀ i ∈ a ++ b, i.symbol = symbol := by
  intro i member
  rcases List.mem_append.mp member with member | member
  · exact first i member
  · exact second i member

theorem Uniform.append (first : Uniform symbol a) (second : Uniform symbol b) :
    Uniform symbol (a ++ b) :=
  ⟨List.append_ne_nil_of_left_ne_nil first.nonempty b, alike_append first.alike second.alike⟩

theorem uniform_act (action : Action) (count : UInt32) (span : Span) :
    Uniform (.act action) [.act action count span] := by
  refine ⟨List.cons_ne_nil _ _, ?_⟩
  intro i member
  rw [List.mem_singleton.mp member]
  rfl

/-- The pieces of a block of an action may be added up first. -/
theorem mergeBlock_append_act_iff (first : Uniform (.act action) a)
    (second : Uniform (.act action) b) : mergeBlock (a ++ b) = .ok group ↔
      ∃ as bs, mergeBlock a = .ok as ∧ mergeBlock b = .ok bs ∧
        mergeBlock (as ++ bs) = .ok group := by
  obtain ⟨p, hullA⟩ := exists_hull first.nonempty
  obtain ⟨q, hullB⟩ := exists_hull second.nonempty
  have joined : total a < UInt32.size → total b < UInt32.size →
      (mergeBlock ([.act action (.ofNat (total a)) p] ++ [.act action (.ofNat (total b)) q]) =
        .ok group ↔ mergeBlock (a ++ b) = .ok group) := by
    intro fitsA fitsB
    have sums : total ([.act action (.ofNat (total a)) p] ++ [.act action (.ofNat (total b)) q]) =
        total (a ++ b) := by
      rw [total_append, total_append, total_singleton, total_singleton]
      change (UInt32.ofNat (total a)).toNat + (UInt32.ofNat (total b)).toNat = _
      rw [UInt32.toNat_ofNat_of_lt' fitsA, UInt32.toNat_ofNat_of_lt' fitsB]
    rw [mergeBlock_eq_ok_iff_of_hull ((uniform_act ..).append (uniform_act ..))
        ((hull_singleton _).append (hull_singleton _)),
      mergeBlock_eq_ok_iff_of_hull (first.append second) (hullA.append hullB), sums]
    rfl
  constructor
  · intro merged
    have fits := fits_of_mergeBlock (first.append second) merged
    rw [total_append] at fits
    have fitsA : total a < UInt32.size := by omega
    have fitsB : total b < UInt32.size := by omega
    exact ⟨_, _, mergeBlock_of_fits first hullA fitsA, mergeBlock_of_fits second hullB fitsB,
      (joined fitsA fitsB).mpr merged⟩
  · rintro ⟨as, bs, mergedA, mergedB, merged⟩
    obtain ⟨fitsA, rfl⟩ := (mergeBlock_eq_ok_iff_of_hull first hullA).mp mergedA
    obtain ⟨fitsB, rfl⟩ := (mergeBlock_eq_ok_iff_of_hull second hullB).mp mergedB
    exact (joined fitsA fitsB).mp merged

/-- The pieces of a block may be merged first. -/
theorem mergeBlock_append_iff (alikeA : ∀ i ∈ a, i.symbol = symbol)
    (alikeB : ∀ i ∈ b, i.symbol = symbol) : mergeBlock (a ++ b) = .ok group ↔
      ∃ as bs, mergeBlock a = .ok as ∧ mergeBlock b = .ok bs ∧
        mergeBlock (as ++ bs) = .ok group := by
  by_cases emptyA : a = []
  · subst emptyA
    constructor
    · intro merged
      exact ⟨[], group, rfl, merged, (mergeBlock_again alikeB merged).2⟩
    · rintro ⟨as, bs, none, mergedB, merged⟩
      cases none
      exact mergedB.trans ((mergeBlock_again alikeB mergedB).2.symm.trans merged)
  · by_cases emptyB : b = []
    · subst emptyB
      rw [List.append_nil]
      constructor
      · intro merged
        refine ⟨group, [], merged, rfl, ?_⟩
        rw [List.append_nil]
        exact (mergeBlock_again alikeA merged).2
      · rintro ⟨as, bs, mergedA, none, merged⟩
        cases none
        rw [List.append_nil] at merged
        exact mergedA.trans ((mergeBlock_again alikeA mergedA).2.symm.trans merged)
    · cases isAction : symbol.isAction with
      | true =>
          cases symbol with
          | act action => exact mergeBlock_append_act_iff ⟨emptyA, alikeA⟩ ⟨emptyB, alikeB⟩
          | _ => cases isAction
      | false =>
          simp only [mergeBlock_of_alike alikeA isAction, mergeBlock_of_alike alikeB isAction,
            Except.ok.injEq, exists_and_left, exists_eq_left']

end Pieces

/-! ### One block after the other -/

/-- What holds of the empty program, and of a block in front of what starts with another symbol,
holds of every program. -/
theorem block_induction {P : List Instruction → Prop} (nil : P [])
    (block : ∀ symbol block rest, Uniform symbol block →
      (∀ j ∈ rest.head?, j.symbol ≠ symbol) → P rest → P (block ++ rest))
    (program : List Instruction) : P program := by
  obtain ⟨symbols, uniform, different⟩ := exists_symbols_blocks program
  have whole : (blocks program).flatten = program := List.flatten_splitBy ..
  rw [← whole]
  clear whole
  generalize blocks program = groups at uniform
  induction uniform with
  | nil => exact nil
  | cons first rest ih =>
      exact block _ _ _ first (apart_of_isChain rest different) (ih different.tail)

/-- A program starts with a possibly empty block of any given symbol. -/
theorem exists_leading (symbol : Symbol) (program : List Instruction) :
    ∃ block rest, program = block ++ rest ∧ (∀ i ∈ block, i.symbol = symbol) ∧
      ∀ j ∈ rest.head?, j.symbol ≠ symbol := by
  refine ⟨program.takeWhile (·.symbol == symbol), program.dropWhile (·.symbol == symbol),
    List.takeWhile_append_dropWhile.symm, ?_, ?_⟩
  · intro i member
    exact beq_iff_eq.mp (List.all_eq_true.mp List.all_takeWhile i member)
  · intro j head same
    have none := List.head?_dropWhile_not (·.symbol == symbol) program
    rw [head] at none
    simp [same] at none

section Halves

variable {symbol : Symbol} {block rest xs ys zs : List Instruction}

/-- A leading block is merged on its own. -/
theorem collapse_leading_iff (alike : ∀ i ∈ block, i.symbol = symbol)
    (apart : ∀ j ∈ rest.head?, j.symbol ≠ symbol) : collapse (block ++ rest) = .ok zs ↔
      ∃ group others, mergeBlock block = .ok group ∧ collapse rest = .ok others ∧
        zs = group ++ others := by
  cases block with
  | nil =>
      constructor
      · intro collapsed
        exact ⟨[], zs, rfl, collapsed, rfl⟩
      · rintro ⟨group, others, none, collapsed, rfl⟩
        cases none
        exact collapsed
  | cons first more =>
      have uniform : Uniform symbol (first :: more) := ⟨List.cons_ne_nil first more, alike⟩
      rw [collapse_eq_ok_iff, blocks_append uniform apart]
      simp only [collapse_eq_ok_iff, List.forall₂_cons_left_iff]
      constructor
      · rintro ⟨_, ⟨group, groups, merged, others, rfl⟩, rfl⟩
        exact ⟨group, groups.flatten, merged, ⟨groups, others, rfl⟩, rfl⟩
      · rintro ⟨group, _, merged, ⟨groups, others, rfl⟩, rfl⟩
        exact ⟨group :: groups, ⟨group, groups, merged, others, rfl⟩, rfl⟩

/-- Collapsing keeps the symbol at the front. -/
theorem symbol_head?_collapse (collapsed : collapse xs = .ok ys) :
    ys.head?.map Instruction.symbol = xs.head?.map Instruction.symbol := by
  obtain ⟨groups, merged, rfl⟩ := collapse_eq_ok_iff.mp collapsed
  obtain ⟨symbols, uniform, -⟩ := exists_symbols_blocks xs
  have whole : (blocks xs).flatten = xs := List.flatten_splitBy ..
  rw [symbol_head?_flatten (forall₂_merged uniform merged).1, ← symbol_head?_flatten uniform, whole]

theorem apart_of_collapse (collapsed : collapse xs = .ok ys)
    (apart : ∀ j ∈ xs.head?, j.symbol ≠ symbol) : ∀ j ∈ ys.head?, j.symbol ≠ symbol := by
  intro j head
  have same := symbol_head?_collapse collapsed
  rw [head] at same
  obtain ⟨i, first, equal⟩ := Option.map_eq_some_iff.mp same.symm
  rw [← equal]
  exact apart i first

/-- A block may be merged before what is behind it is added, even if that starts with more of the
block. -/
theorem collapse_block_append_iff (alike : ∀ i ∈ block, i.symbol = symbol) :
    collapse (block ++ ys) = .ok zs ↔ ∃ as bs, mergeBlock block = .ok as ∧
      collapse ys = .ok bs ∧ collapse (as ++ bs) = .ok zs := by
  obtain ⟨piece, rest, rfl, alike', apart⟩ := exists_leading symbol ys
  -- What is left of both pieces stands in front of what is left of the rest, as before.
  have left {as bs others : List Instruction} (mergedA : mergeBlock block = .ok as)
      (mergedB : mergeBlock piece = .ok bs) (collapsed : collapse rest = .ok others) :
      collapse (as ++ (bs ++ others)) = .ok zs ↔
        ∃ group, mergeBlock (as ++ bs) = .ok group ∧ zs = group ++ others := by
    have both := alike_append (mergeBlock_again alike mergedA).1 (mergeBlock_again alike' mergedB).1
    rw [← List.append_assoc, collapse_leading_iff both (apart_of_collapse collapsed apart),
      collapse_collapse collapsed]
    simp only [Except.ok.injEq, exists_and_left, exists_eq_left']
  rw [← List.append_assoc, collapse_leading_iff (alike_append alike alike') apart]
  simp only [collapse_leading_iff alike' apart, mergeBlock_append_iff alike alike']
  constructor
  · rintro ⟨group, others, ⟨as, bs, mergedA, mergedB, merged⟩, collapsed, rfl⟩
    exact ⟨as, bs ++ others, mergedA, ⟨bs, others, mergedB, collapsed, rfl⟩,
      (left mergedA mergedB collapsed).mpr ⟨group, merged, rfl⟩⟩
  · rintro ⟨as, _, mergedA, ⟨bs, others, mergedB, collapsed, rfl⟩, whole⟩
    obtain ⟨group, merged, rfl⟩ := (left mergedA mergedB collapsed).mp whole
    exact ⟨group, others, ⟨as, bs, mergedA, mergedB, merged⟩, collapsed, rfl⟩

/-- A program can be collapsed exactly when its halves can, and then what is left of them. -/
theorem collapse_append_iff : collapse (xs ++ ys) = .ok zs ↔ ∃ as bs, collapse xs = .ok as ∧
    collapse ys = .ok bs ∧ collapse (as ++ bs) = .ok zs := by
  induction xs using block_induction generalizing zs with
  | nil =>
      constructor
      · intro collapsed
        exact ⟨[], zs, rfl, collapsed, collapse_collapse collapsed⟩
      · rintro ⟨as, bs, none, collapsed, again⟩
        cases none
        exact collapsed.trans ((collapse_collapse collapsed).symm.trans again)
  | block symbol block rest uniform apart ih =>
      -- The leading block can be split off from the program and from what is left of it.
      have inner {as rs bs : List Instruction} (merged : mergeBlock block = .ok as) :
          collapse (as ++ rs ++ bs) = .ok zs ↔
            ∃ ws, collapse (rs ++ bs) = .ok ws ∧ collapse (as ++ ws) = .ok zs := by
        obtain ⟨alike, again⟩ := mergeBlock_again uniform.alike merged
        rw [List.append_assoc, collapse_block_append_iff alike, again]
        simp only [Except.ok.injEq, exists_and_left, exists_eq_left']
      rw [List.append_assoc, collapse_block_append_iff uniform.alike]
      simp only [collapse_leading_iff uniform.alike apart, ih]
      constructor
      · rintro ⟨as, ws, merged, ⟨rs, bs, left, right, joined⟩, collapsed⟩
        exact ⟨as ++ rs, bs, ⟨as, rs, merged, left, rfl⟩, right,
          (inner merged).mpr ⟨ws, joined, collapsed⟩⟩
      · rintro ⟨_, bs, ⟨as, rs, merged, left, rfl⟩, right, collapsed⟩
        obtain ⟨ws, joined, collapsed⟩ := (inner merged).mp collapsed
        exact ⟨as, ws, merged, ⟨rs, bs, left, right, joined⟩, collapsed⟩

end Halves

/-! ### Parts in any order -/

/-- Some part of a program is replaced by what is left of it. -/
inductive CollapsesPart : List Instruction → List Instruction → Prop where
  | part (front back : List Instruction) {part shorter : List Instruction}
      (collapsed : collapse part = .ok shorter) :
      CollapsesPart (front ++ (part ++ back)) (front ++ (shorter ++ back))

theorem CollapsesPart.collapse_iff {program program' zs : List Instruction}
    (step : CollapsesPart program program') :
    collapse program = .ok zs ↔ collapse program' = .ok zs := by
  obtain ⟨front, back, collapsed⟩ := step
  rename_i part shorter
  have inner (ws : List Instruction) :
      collapse (part ++ back) = .ok ws ↔ collapse (shorter ++ back) = .ok ws := by
    rw [collapse_append_iff, collapse_append_iff, collapsed, collapse_collapse collapsed]
  rw [collapse_append_iff, collapse_append_iff]
  simp only [inner]

/-- Replacing parts by what is left of them, step after step, keeps what is left in the end. -/
theorem collapse_iff_of_steps {program program' zs : List Instruction}
    (steps : Relation.ReflTransGen CollapsesPart program program') :
    collapse program = .ok zs ↔ collapse program' = .ok zs := by
  induction steps with
  | refl => rfl
  | tail _ step ih => exact ih.trans step.collapse_iff

/-- A program can be collapsed exactly when its two halves can and then what is left of them, and
the result is the same. So parts of a program may be collapsed one after the other, wherever they
are and whatever has been collapsed before, and then the whole. -/
theorem collapse_in_parts (zs : List Instruction) :
    (∀ xs ys, collapse (xs ++ ys) = .ok zs ↔ ∃ as bs, collapse xs = .ok as ∧
      collapse ys = .ok bs ∧ collapse (as ++ bs) = .ok zs) ∧
    ∀ program program', Relation.ReflTransGen CollapsesPart program program' →
      (collapse program = .ok zs ↔ collapse program' = .ok zs) := by
  refine ⟨?_, ?_⟩
  · intro xs ys
    exact collapse_append_iff
  · intro program program' steps
    exact collapse_iff_of_steps steps

/-- The theorem at a block that is cut in two, and at its last two instructions, which are added up
before the whole is. -/
theorem collapse_in_parts_straddling :
    let xs : List Instruction := [.act .right 1 ⟨0, 0⟩, .act .add 2 ⟨7, 1⟩]
    let ys : List Instruction := [.act .add 200 ⟨2, 2⟩, .act .add 100 ⟨3, 9⟩]
    let zs : List Instruction := [.act .right 1 ⟨0, 0⟩, .act .add 302 ⟨2, 9⟩]
    (∃ as bs, collapse xs = .ok as ∧ collapse ys = .ok bs ∧ collapse (as ++ bs) = .ok zs) ∧
      collapse (xs ++ [.act .add 300 ⟨2, 9⟩]) = .ok zs := by
  intro xs ys zs
  have whole : collapse (xs ++ ys) = .ok zs := rfl
  have step : CollapsesPart (xs ++ (ys ++ [])) (xs ++ ([.act .add 300 ⟨2, 9⟩] ++ [])) :=
    .part xs [] rfl
  exact ⟨((collapse_in_parts zs).1 xs ys).mp whole,
    ((collapse_in_parts zs).2 _ _ (.single step)).mp whole⟩

end Brainfuck.RunLength
