import Brainfuck.Proofs.RunLength.Sums

/-!
The run-length form of a program. It is made from the cut of the program into maximal blocks of one
symbol: a block of an action becomes one instruction, with the exact sum of the counts and the hull
of the spans, and any other block stays as it is. Collapsing succeeds with this form and with no
other program (`collapse_eq_ok_iff_form`), and no two neighbours in it are of one action
(`collapse_maximal_form`).
-/

namespace Brainfuck.RunLength

/-! ### The form -/

/-- The cut divides a program into blocks of one symbol each, and neighbouring blocks are of
different symbols. -/
structure MaximalBlocks (program : List Instruction) (cut : List (List Instruction)) : Prop where
  whole : cut.flatten = program
  apart : ∃ symbols, List.Forall₂ Uniform symbols cut ∧ symbols.IsChain (· ≠ ·)

/-- What a block of one symbol becomes. The counts of an action are added up without wrapping. -/
inductive Becomes : List Instruction → List Instruction → Prop where
  | summed {action : Action} {block : List Instruction} {count : UInt32} {span : Span}
      (uniform : Uniform (.act action) block) (exact : count.toNat = total block)
      (hull : Hull block span) : Becomes block [.act action count span]
  | copied {symbol : Symbol} {block : List Instruction} (uniform : Uniform symbol block)
      (other : symbol.isAction = false) : Becomes block block

/-- The shorter program consists of what the maximal blocks of a program become, in order. -/
def IsForm (program shorter : List Instruction) : Prop :=
  ∃ cut groups, MaximalBlocks program cut ∧ List.Forall₂ Becomes cut groups ∧
    shorter = groups.flatten

/-- The instructions are not of one action. -/
def Unlike (i j : Instruction) : Prop :=
  i.isAction → i.symbol ≠ j.symbol

/-! ### The cut -/

theorem maximalBlocks_iff {program : List Instruction} {cut : List (List Instruction)} :
    MaximalBlocks program cut ↔ cut = blocks program := by
  constructor
  · rintro ⟨rfl, symbols, uniform, different⟩
    exact (blocks_flatten uniform different).symm
  · rintro rfl
    exact ⟨List.flatten_splitBy .., exists_symbols_blocks program⟩

/-! ### One block -/

theorem mergeBlock_of_alike {symbol : Symbol} {block : List Instruction}
    (alike : ∀ i ∈ block, i.symbol = symbol) (other : symbol.isAction = false) :
    mergeBlock block = .ok block := by
  cases block with
  | nil => rfl
  | cons first rest =>
      apply mergeBlock_of_not_isAction
      rw [alike first List.mem_cons_self, other]

/-- A block that can be merged fits. -/
theorem fits_of_mergeBlock {action : Action} {block group : List Instruction}
    (uniform : Uniform (.act action) block) (merged : mergeBlock block = .ok group) :
    total block < UInt32.size := by
  by_contra long
  obtain ⟨start, next, rest, rfl, fits, overflow⟩ := exists_overflow (Nat.not_lt.mp long)
  obtain ⟨span, hull⟩ : ∃ span, Hull (start ++ [next]) span := exists_hull (by simp)
  rw [mergeBlock_of_overflow uniform hull fits overflow] at merged
  cases merged

/-- A block merges to what it becomes. -/
theorem mergeBlock_eq_ok_iff {symbol : Symbol} {block group : List Instruction}
    (uniform : Uniform symbol block) : mergeBlock block = .ok group ↔ Becomes block group := by
  constructor
  · intro merged
    cases isAction : symbol.isAction with
    | false =>
        rw [mergeBlock_of_alike uniform.alike isAction] at merged
        cases merged
        exact .copied uniform isAction
    | true =>
        cases symbol with
        | act action =>
            obtain ⟨span, hull⟩ := exists_hull uniform.nonempty
            have fits := fits_of_mergeBlock uniform merged
            rw [mergeBlock_of_fits uniform hull fits] at merged
            cases merged
            exact .summed uniform (UInt32.toNat_ofNat_of_lt' fits) hull
        | _ => cases isAction
  · intro becomes
    cases becomes with
    | summed uniform exact hull =>
        have fits : total block < UInt32.size := exact ▸ UInt32.toNat_lt_size _
        rw [mergeBlock_of_fits uniform hull fits, ← exact, UInt32.ofNat_toNat]
    | copied uniform other => exact mergeBlock_of_alike uniform.alike other

/-! ### All blocks -/

theorem forall₂_mergeBlock_iff {symbols : List Symbol} {cut groups : List (List Instruction)}
    (uniform : List.Forall₂ Uniform symbols cut) :
    List.Forall₂ (fun block group => mergeBlock block = .ok group) cut groups ↔
      List.Forall₂ Becomes cut groups := by
  induction uniform generalizing groups with
  | nil => rw [List.forall₂_nil_left_iff, List.forall₂_nil_left_iff]
  | cons first rest ih =>
      rw [List.forall₂_cons_left_iff, List.forall₂_cons_left_iff]
      simp only [mergeBlock_eq_ok_iff first, ih]

/-- Collapsing succeeds with the run-length form. -/
theorem collapse_eq_ok_iff_form {program shorter : List Instruction} :
    collapse program = .ok shorter ↔ IsForm program shorter := by
  obtain ⟨symbols, uniform, -⟩ := exists_symbols_blocks program
  simp only [collapse_eq_ok_iff, forall₂_mergeBlock_iff uniform, IsForm, maximalBlocks_iff,
    exists_and_left, exists_eq_left]

/-! ### Neighbours -/

theorem Becomes.isChain {block group : List Instruction} (becomes : Becomes block group) :
    group.IsChain Unlike := by
  cases becomes with
  | summed => exact .singleton _
  | copied uniform other =>
      apply List.Pairwise.isChain
      apply List.pairwise_of_forall_mem_list
      intro i member j _ isAction
      rw [Instruction.isAction, uniform.alike i member, other] at isAction
      cases isAction

/-- In merged blocks of different symbols no two neighbours are of one action. -/
theorem isChain_flatten {symbols : List Symbol} {groups : List (List Instruction)}
    (uniform : List.Forall₂ Uniform symbols groups) (different : symbols.IsChain (· ≠ ·))
    (merged : ∀ group ∈ groups, mergeBlock group = .ok group) :
    groups.flatten.IsChain Unlike := by
  induction uniform with
  | nil => exact .nil
  | @cons symbol group symbols groups first rest ih =>
      have inside := (mergeBlock_eq_ok_iff first).mp (merged group List.mem_cons_self)
      have others := ih different.tail fun other member =>
        merged other (List.mem_cons_of_mem _ member)
      rw [List.flatten_cons, List.isChain_append]
      refine ⟨inside.isChain, others, ?_⟩
      intro i last j next isAction same
      rw [first.alike i (List.mem_of_mem_getLast? last)] at same
      exact apart_of_isChain rest different j next same.symm

/-- A collapsed program is the run-length form of the program, which is cut in one way only. No two
neighbours in it are of one action, and no other program is that form. -/
theorem collapse_maximal_form {program shorter : List Instruction}
    (collapsed : collapse program = .ok shorter) :
    IsForm program shorter ∧ (∃! cut, MaximalBlocks program cut) ∧ shorter.IsChain Unlike ∧
      ∀ other, IsForm program other → other = shorter := by
  refine ⟨collapse_eq_ok_iff_form.mp collapsed, ?_, ?_, ?_⟩
  · refine ⟨blocks program, maximalBlocks_iff.mpr rfl, ?_⟩
    intro cut isCut
    exact maximalBlocks_iff.mp isCut
  · obtain ⟨groups, merged, rfl⟩ := collapse_eq_ok_iff.mp collapsed
    obtain ⟨symbols, uniform, different⟩ := exists_symbols_blocks program
    obtain ⟨alike, again⟩ := forall₂_merged uniform merged
    exact isChain_flatten alike different (List.forall₂_same.mp again)
  · intro other isForm
    have same := (collapse_eq_ok_iff_form.mpr isForm).symm.trans collapsed
    exact Except.ok.inj same

/-- The theorem at a program with a count of zero, spans out of order and a block that is copied. -/
theorem collapse_maximal_form_unordered :
    let program : List Instruction := [.act .add 0 ⟨9, 2⟩, .act .add 300 ⟨4, 7⟩, .output ⟨5, 5⟩,
      .output ⟨1, 1⟩, .act .right 2 ⟨3, 0⟩]
    let shorter : List Instruction := [.act .add 300 ⟨4, 7⟩, .output ⟨5, 5⟩, .output ⟨1, 1⟩,
      .act .right 2 ⟨3, 0⟩]
    collapse program = .ok shorter ∧ IsForm program shorter ∧
      (∃! cut, MaximalBlocks program cut) ∧ shorter.IsChain Unlike ∧
      ∀ other, IsForm program other → other = shorter := by
  intro program shorter
  have collapsed : collapse program = .ok shorter := rfl
  exact ⟨collapsed, collapse_maximal_form collapsed⟩

end Brainfuck.RunLength
