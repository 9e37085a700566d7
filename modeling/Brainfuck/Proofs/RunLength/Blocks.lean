import Brainfuck.RunLength
import Brainfuck.Proofs.Fallible
import Brainfuck.Proofs.LoopTree
import Mathlib.Data.List.SplitBy

/-!
Blocks and their sums. A program is cut into blocks of one symbol each, neighbours having different
symbols, and this cut is the only one of its kind (`blocks_flatten`). Merging a block leaves a block
of the same symbol that merges to itself, so collapsing a second time changes nothing
(`collapse_collapse`). A block fits as long as the exact sum of its counts does.
-/

namespace Brainfuck.RunLength

/-! ### The cut into blocks -/

/-- Splitting commutes with a map, if the map is looked through. -/
theorem splitBy_map {α β : Type} (f : α → β) (r : β → β → Bool) (l : List α) :
    (l.map f).splitBy r = (l.splitBy fun a b => r (f a) (f b)).map (List.map f) := by
  rw [List.splitBy_eq_iff]
  refine ⟨?_, ?_, ?_, ?_⟩
  · rw [← List.map_flatten, List.flatten_splitBy]
  · intro member
    obtain ⟨b, member, empty⟩ := List.mem_map.mp member
    exact List.ne_nil_of_mem_splitBy member (List.map_eq_nil_iff.mp empty)
  · intro b member
    obtain ⟨a, inside, rfl⟩ := List.mem_map.mp member
    rw [List.isChain_map]
    exact List.isChain_of_mem_splitBy inside
  · rw [List.isChain_map]
    refine (List.isChain_getLast_head_splitBy _ l).imp ?_
    rintro a b ⟨ha, hb, differ⟩
    refine ⟨mt List.map_eq_nil_iff.mp ha, mt List.map_eq_nil_iff.mp hb, ?_⟩
    rwa [List.getLast_map, List.head_map]

/-- Lists whose items correspond are split at corresponding places, if related neighbours are. -/
theorem forall₂_splitBy {α β : Type} {R : α → β → Prop} {p : α → α → Bool} {q : β → β → Bool}
    (alike : ∀ {a b a' b'}, R a b → R a' b' → p a a' = q b b') {xs : List α} {ys : List β}
    (related : List.Forall₂ R xs ys) :
    List.Forall₂ (List.Forall₂ R) (xs.splitBy p) (ys.splitBy q) := by
  -- Both lists are views of one list of related pairs, and that one is split only once.
  have paired : ∃ zs : List { z : α × β // R z.1 z.2 },
      xs = zs.map (·.1.1) ∧ ys = zs.map (·.1.2) := by
    induction related with
    | nil => exact ⟨[], rfl, rfl⟩
    | cons first rest ih =>
        obtain ⟨zs, rfl, rfl⟩ := ih
        exact ⟨⟨⟨_, _⟩, first⟩ :: zs, rfl, rfl⟩
  obtain ⟨zs, rfl, rfl⟩ := paired
  have same : (fun a b : { z : α × β // R z.1 z.2 } => p a.1.1 b.1.1) =
      fun a b => q a.1.2 b.1.2 := by
    funext a b
    exact alike a.2 b.2
  rw [splitBy_map, splitBy_map, same, List.forall₂_map_left_iff, List.forall₂_map_right_iff,
    List.forall₂_same]
  intro block member
  rw [List.forall₂_map_left_iff, List.forall₂_map_right_iff, List.forall₂_same]
  exact fun z inside => z.2

/-- A block of one symbol. -/
structure Uniform (symbol : Symbol) (block : List Instruction) : Prop where
  nonempty : block ≠ []
  alike : ∀ i ∈ block, i.symbol = symbol

/-- In a chain of equal symbols all symbols are that of the first. -/
theorem symbol_eq_of_isChain {first : Instruction} {rest : List Instruction}
    (chain : (first :: rest).IsChain fun a b => a.symbol == b.symbol) :
    ∀ i ∈ rest, i.symbol = first.symbol := by
  induction rest generalizing first with
  | nil => exact fun i member => absurd member List.not_mem_nil
  | cons second rest ih =>
      obtain ⟨same, chain⟩ := List.isChain_cons_cons.mp chain
      have second : second.symbol = first.symbol := (beq_iff_eq.mp same).symm
      intro i member
      rcases List.mem_cons.mp member with rfl | member
      · exact second
      · exact (ih chain i member).trans second

theorem exists_uniform_of_mem_blocks {program block : List Instruction}
    (member : block ∈ blocks program) : ∃ symbol, Uniform symbol block := by
  have chain : block.IsChain fun a b => a.symbol == b.symbol := List.isChain_of_mem_splitBy member
  cases block with
  | nil => exact absurd member (List.nil_notMem_splitBy _ _)
  | cons first rest =>
      refine ⟨first.symbol, List.cons_ne_nil _ _, fun i inside => ?_⟩
      rcases List.mem_cons.mp inside with rfl | inside
      · rfl
      · exact symbol_eq_of_isChain chain i inside

/-- The blocks of a program are uniform, and neighbours have different symbols. -/
theorem exists_symbols_blocks (program : List Instruction) :
    ∃ symbols, List.Forall₂ Uniform symbols (blocks program) ∧ symbols.IsChain (· ≠ ·) := by
  have uniform (block) (member : block ∈ blocks program) : ∃ symbol, Uniform symbol block :=
    exists_uniform_of_mem_blocks member
  have different := List.isChain_getLast_head_splitBy (fun a b => a.symbol == b.symbol) program
  change (blocks program).IsChain _ at different
  generalize blocks program = bs at uniform different
  induction bs with
  | nil => exact ⟨[], .nil, .nil⟩
  | cons block rest ih =>
      obtain ⟨symbols, alike, chain⟩ :=
        ih (fun b member => uniform b (List.mem_cons_of_mem _ member)) different.tail
      obtain ⟨symbol, first⟩ := uniform block List.mem_cons_self
      refine ⟨symbol :: symbols, .cons first alike, ?_⟩
      cases alike with
      | nil => exact .singleton _
      | @cons second next _ _ head tail =>
          refine List.isChain_cons_cons.mpr ⟨?_, chain⟩
          obtain ⟨ha, hb, differ⟩ := (List.isChain_cons_cons.mp different).1
          rintro rfl
          rw [first.alike _ (List.getLast_mem ha), head.alike _ (List.head_mem hb)] at differ
          exact absurd differ (by simp)

theorem Uniform.isChain {symbol : Symbol} {block : List Instruction} (u : Uniform symbol block) :
    block.IsChain fun a b => a.symbol == b.symbol := by
  apply List.Pairwise.isChain
  apply List.pairwise_of_forall_mem_list
  intro a memberA b memberB
  rw [u.alike a memberA, u.alike b memberB]
  exact beq_self_eq_true symbol

/-- In front of what starts with another symbol, a block stays a block. -/
theorem blocks_append {symbol : Symbol} {block rest : List Instruction}
    (uniform : Uniform symbol block) (apart : ∀ j ∈ rest.head?, j.symbol ≠ symbol) :
    blocks (block ++ rest) = block :: blocks rest := by
  have differ : ∀ i ∈ block.getLast?, ∀ j ∈ rest.head?, (i.symbol == j.symbol) = false := by
    intro i last j head
    rw [uniform.alike i (List.mem_of_mem_getLast? last)]
    exact beq_eq_false_iff_ne.mpr (apart j head).symm
  rw [blocks, List.splitBy_append differ, List.splitBy_of_isChain uniform.nonempty uniform.isChain]
  rfl

/-- The first instruction of some blocks has the symbol of the first block. -/
theorem symbol_head?_flatten {symbols : List Symbol} {groups : List (List Instruction)}
    (uniform : List.Forall₂ Uniform symbols groups) :
    groups.flatten.head?.map Instruction.symbol = symbols.head? := by
  cases uniform with
  | nil => rfl
  | cons first rest =>
      obtain ⟨i, others, rfl⟩ := List.exists_cons_of_ne_nil first.nonempty
      exact congrArg some (first.alike i List.mem_cons_self)

theorem apart_of_isChain {symbol : Symbol} {symbols : List Symbol}
    {groups : List (List Instruction)} (uniform : List.Forall₂ Uniform symbols groups)
    (different : (symbol :: symbols).IsChain (· ≠ ·)) :
    ∀ j ∈ groups.flatten.head?, j.symbol ≠ symbol := by
  intro j head
  have second : symbols.head? = some j.symbol := by
    rw [← symbol_head?_flatten uniform, head]
    rfl
  exact ((List.isChain_cons.mp different).1 j.symbol second).symm

/-- Nonempty lists of one symbol each, neighbours having different symbols, are the blocks of what
they make up. -/
theorem blocks_flatten {symbols : List Symbol} {groups : List (List Instruction)}
    (uniform : List.Forall₂ Uniform symbols groups) (different : symbols.IsChain (· ≠ ·)) :
    blocks groups.flatten = groups := by
  induction uniform with
  | nil => rfl
  | cons first rest ih =>
      rw [List.flatten_cons, blocks_append first (apart_of_isChain rest different),
        ih different.tail]

/-! ### Merging -/

theorem mergeBlock_of_not_isAction {i : Instruction} {rest : List Instruction}
    (other : i.symbol.isAction = false) : mergeBlock (i :: rest) = .ok (i :: rest) := by
  cases i with
  | act action count span => cases other
  | _ => rfl

/-- What is left of a block has the block's symbol, and merging leaves it alone. -/
theorem Uniform.mergeBlock {symbol : Symbol} {block group : List Instruction}
    (uniform : Uniform symbol block) (merged : RunLength.mergeBlock block = .ok group) :
    Uniform symbol group ∧ RunLength.mergeBlock group = .ok group := by
  have again := merged
  unfold RunLength.mergeBlock at merged
  split at merged
  · rename_i action count span rest
    have first := uniform.alike _ List.mem_cons_self
    cases added : rest.foldlM (Sum.add action) ⟨count, span⟩ with
    | error e =>
        rw [added] at merged
        cases merged
    | ok sum =>
        rw [added] at merged
        cases merged
        refine ⟨⟨List.cons_ne_nil _ _, fun i member => ?_⟩, rfl⟩
        rw [List.mem_singleton.mp member]
        exact first
  · cases merged
    exact ⟨uniform, again⟩

theorem collapse_eq_ok_iff {xs ys : List Instruction} :
    collapse xs = .ok ys ↔ ∃ groups,
      List.Forall₂ (fun block group => mergeBlock block = .ok group) (blocks xs) groups ∧
        ys = groups.flatten := by
  simp only [← mapM_eq_ok_iff]
  unfold collapse
  cases (blocks xs).mapM mergeBlock with
  | error e => exact ⟨nofun, nofun⟩
  | ok groups =>
      constructor
      · intro collapsed
        exact ⟨groups, rfl, (Except.ok.inj collapsed).symm⟩
      · rintro ⟨_, same, rfl⟩
        cases same
        rfl

/-- The first block that does not fit is reported. -/
theorem collapse_of_error {xs block : List Instruction} {before after : List (List Instruction)}
    {e : Error} (cut : blocks xs = before ++ block :: after)
    (fine : ∀ b ∈ before, ∃ group, mergeBlock b = .ok group)
    (failed : mergeBlock block = .error e) : collapse xs = .error e := by
  unfold collapse
  rw [cut, mapM_of_error fine failed]
  rfl

/-- Merged blocks have the symbols of the blocks, and are merged already. -/
theorem forall₂_merged {symbols : List Symbol} {bs groups : List (List Instruction)}
    (uniform : List.Forall₂ Uniform symbols bs)
    (merged : List.Forall₂ (fun block group => mergeBlock block = .ok group) bs groups) :
    List.Forall₂ Uniform symbols groups ∧
      List.Forall₂ (fun block group => mergeBlock block = .ok group) groups groups := by
  induction merged generalizing symbols with
  | nil =>
      cases uniform
      exact ⟨.nil, .nil⟩
  | cons first rest ih =>
      cases uniform with
      | cons head tail =>
          obtain ⟨others, again⟩ := ih tail
          obtain ⟨alike, same⟩ := head.mergeBlock first
          exact ⟨.cons alike others, .cons same again⟩

/-- Collapsing what is already collapsed changes nothing. -/
theorem collapse_collapse {xs ys : List Instruction} (collapsed : collapse xs = .ok ys) :
    collapse ys = .ok ys := by
  obtain ⟨groups, merged, rfl⟩ := collapse_eq_ok_iff.mp collapsed
  obtain ⟨symbols, uniform, different⟩ := exists_symbols_blocks xs
  obtain ⟨alike, again⟩ := forall₂_merged uniform merged
  rw [collapse_eq_ok_iff, blocks_flatten alike different]
  exact ⟨groups, again, rfl⟩

/-! ### Sums -/

/-- The exact sum of a block's counts. -/
def total (block : List Instruction) : Nat :=
  block.foldr (fun i sum => i.count.toNat + sum) 0

/-- The least span that covers a first one and those of a block. -/
def extent (first : Span) (block : List Instruction) : Span :=
  block.foldl (fun span i => span.cover i.span) first

@[simp] theorem total_cons (i : Instruction) (rest : List Instruction) :
    total (i :: rest) = i.count.toNat + total rest :=
  rfl

/-- A sum that fits is exact, and covers all spans. -/
theorem foldlM_add_of_fits {action : Action} {first : Sum} {rest : List Instruction}
    (fits : first.count.toNat + total rest < UInt32.size) :
    rest.foldlM (Sum.add action) first =
      .ok ⟨.ofNat (first.count.toNat + total rest), extent first.span rest⟩ := by
  induction rest generalizing first with
  | nil =>
      have same : UInt32.ofNat (first.count.toNat + total []) = first.count := UInt32.ofNat_toNat
      rw [same]
      rfl
  | cons next rest ih =>
      rw [total_cons] at fits
      have now : first.count.toNat + next.count.toNat < UInt32.size := by omega
      have sum : (first.count + next.count).toNat = first.count.toNat + next.count.toNat := by
        rw [UInt32.toNat_add]
        exact Nat.mod_eq_of_lt now
      have step : Sum.add action first next =
          .ok ⟨first.count + next.count, first.span.cover next.span⟩ := if_pos now
      rw [foldlM_cons_of_ok rest step, ih (by rw [sum]; omega), sum, total_cons, Nat.add_assoc]
      rfl

/-- The first sum that does not fit is reported with the span up to that place. -/
theorem foldlM_add_of_overflow {action : Action} {first : Sum} {before after : List Instruction}
    {next : Instruction} (fits : first.count.toNat + total before < UInt32.size)
    (overflow : UInt32.size ≤ first.count.toNat + total before + next.count.toNat) :
    (before ++ next :: after).foldlM (Sum.add action) first =
      .error (.runLengthOverflow (Symbol.act action).char
        (extent first.span (before ++ [next]))) := by
  have sum : (UInt32.ofNat (first.count.toNat + total before)).toNat =
      first.count.toNat + total before := UInt32.toNat_ofNat_of_lt' fits
  have step : Sum.add action ⟨.ofNat (first.count.toNat + total before), extent first.span before⟩
      next = .error (.runLengthOverflow (Symbol.act action).char
        ((extent first.span before).cover next.span)) := by
    apply if_neg
    rw [sum]
    exact Nat.not_lt.mpr overflow
  rw [foldlM_append_of_ok _ (foldlM_add_of_fits fits), List.foldlM_cons, step, extent, extent,
    List.foldl_append]
  rfl

end Brainfuck.RunLength
