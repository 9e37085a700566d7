import Brainfuck.Proofs.Loops.Culprit
import Brainfuck.Proofs.Machine.JumpTable
import Mathlib.Order.Bounds.Basic

/-!
The table that `jumps` makes is the matching of the brackets, and there is no other (`Matching`).
It is made for the programs whose brackets match, and these are programs of trees: in the table of
a tree every index is settled (`settled_of_slices`), on itself for a command and on its partner for
a bracket. What is left is about partners alone and is a matter of the depth of the beginnings. From
one partner to the other the depth stays above where the pair starts, and behind the pair it is back
there; so the partner is the first place where starts and ends are level again, and two pairs never
overlap.
-/

namespace Brainfuck.Loops

/-! ### The true matching -/

/-- The instructions from `i` to `j`, both included. -/
def through (program : List Instruction) (i j : Nat) : List Instruction :=
  (program.take (j + 1)).drop i

/-- The instructions from `i` to `j` start as many loops as they end. -/
def Level (program : List Instruction) (i j : Nat) : Prop :=
  starts (through program i j) = stops (through program i j)

/-- The table leads from `i` to a later index `j`. -/
structure Paired (table : Array Nat) (i j : Nat) : Prop where
  before : i < j
  entry : table[i]? = some j

/-- The table matches the brackets of the program. -/
structure Matching (program : List Instruction) (table : Array Nat) : Prop where
  size : table.size = program.length
  /-- An instruction that is no bracket has its own index. -/
  own {i : Nat} {instruction : Instruction} : program[i]? = some instruction →
    instruction.symbol ≠ .loopStart → instruction.symbol ≠ .loopEnd → table[i]? = some i
  involution {i j : Nat} : table[i]? = some j → table[j]? = some i
  /-- A loop start has the first index behind it at which starts and ends are level again, and a
  loop end stands there. -/
  forward {i : Nat} {start : Span} : program[i]? = some (.loopStart start) →
    ∃ j, table[i]? = some j ∧ (∃ stop, program[j]? = some (.loopEnd stop)) ∧
      IsLeast {k | i < k ∧ Level program i k} j
  /-- A loop end has the index of a loop start before it. -/
  backward {j : Nat} {stop : Span} : program[j]? = some (.loopEnd stop) →
    ∃ i, table[j]? = some i ∧ i < j ∧ ∃ start, program[i]? = some (.loopStart start)
  /-- Of two pairs the second is behind the first or inside it. -/
  nested {i j i' j' : Nat} : Paired table i j → Paired table i' j' → i < i' → j < i' ∨ j' < j

/-! ### Depth -/

/-- How many more loops the first `n` instructions start than they end. -/
def depth (program : List Instruction) (n : Nat) : Int :=
  starts (program.take n) - stops (program.take n)

theorem level_iff_depth {program : List Instruction} {i j : Nat} (le : i ≤ j) :
    Level program i j ↔ depth program (j + 1) = depth program i := by
  have split : program.take (j + 1) = program.take i ++ through program i j := by
    have whole := List.take_append_drop i (program.take (j + 1))
    rw [List.take_take, Nat.min_eq_left (Nat.le_succ_of_le le)] at whole
    exact whole.symm
  rw [Level, depth, depth, split, starts_append, stops_append]
  omega

theorem depth_split (before : List Instruction) (span : Span) (rest : List Instruction) (n : Nat) :
    depth (before ++ .loopStart span :: rest) (before.length + 1 + n) =
      depth (before ++ .loopStart span :: rest) before.length + 1 + depth rest n := by
  rw [depth, depth, depth, List.take_left, Nat.add_assoc, List.take_length_add_append,
    Nat.add_comm 1 n, List.take_succ_cons, starts_append, stops_append, starts_loopStart,
    stops_loopStart]
  omega

theorem Balanced.depth_nonneg {program : List Instruction} (balanced : Balanced program) (n : Nat) :
    0 ≤ depth program n := by
  have beginning := balanced.beginnings n
  rw [depth]
  omega

section Partners

variable {program : List Instruction} {i j i' j' n : Nat}

/-- Behind a loop start the depth is one more than before it and in the instructions since. -/
theorem Partners.depth_within (partners : Partners program i j) (le : i + 1 + n ≤ j) :
    depth program (i + 1 + n) = depth program i + 1 + depth (between program i j) n := by
  obtain ⟨span, start⟩ := partners.start
  obtain ⟨before, rest, rfl, rfl⟩ := split_of_getElem? start
  obtain ⟨m, rfl⟩ := Nat.exists_eq_add_of_le (Nat.succ_le_of_lt partners.before)
  have inside : depth (rest.take m) n = depth rest n := by
    rw [depth, depth, List.take_take, Nat.min_eq_left (by omega)]
  rw [Nat.succ_eq_add_one, between_split, depth_split, inside]

/-- From one partner to the other the depth is above where the pair starts. -/
theorem Partners.depth_lt (partners : Partners program i j) (behind : i < n) (le : n ≤ j) :
    depth program i < depth program n := by
  obtain ⟨m, rfl⟩ := Nat.exists_eq_add_of_le (Nat.succ_le_of_lt behind)
  have within := partners.depth_within le
  have inside := partners.inside.depth_nonneg m
  rw [Nat.succ_eq_add_one, within]
  omega

/-- Behind a pair the depth is back where the pair starts. -/
theorem Partners.depth_eq (partners : Partners program i j) :
    depth program (j + 1) = depth program i := by
  obtain ⟨stop, here⟩ := partners.stop
  obtain ⟨m, rfl⟩ : ∃ m, j = i + 1 + m := Nat.exists_eq_add_of_le partners.before
  have within := partners.depth_within (Nat.le_refl _)
  have total := partners.inside.total
  have whole : (between program i (i + 1 + m)).take m = between program i (i + 1 + m) :=
    List.take_of_length_le (by simp [between]; omega)
  rw [depth, depth, depth, whole] at within
  rw [depth, depth, List.take_add_one, here, Option.toList_some, starts_append, stops_append,
    starts_loopEnd, stops_loopEnd, starts_nil, stops_nil]
  omega

/-- The partner is the first index at which starts and ends are level again. -/
theorem Partners.isLeast (partners : Partners program i j) :
    IsLeast {k | i < k ∧ Level program i k} j := by
  have before := partners.before
  constructor
  · exact ⟨before, (level_iff_depth (Nat.le_of_lt before)).mpr partners.depth_eq⟩
  · rintro k ⟨behind, level⟩
    by_contra short
    have above := partners.depth_lt (n := k + 1) (by omega) (by omega)
    rw [level_iff_depth (Nat.le_of_lt behind)] at level
    omega

/-- A pair that starts inside another one ends there. -/
theorem Partners.nested (outer : Partners program i j) (inner : Partners program i' j')
    (lt : i < i') : j < i' ∨ j' < j := by
  by_contra overlap
  obtain ⟨within, beyond⟩ : i' ≤ j ∧ j ≤ j' := by omega
  have above := outer.depth_lt lt within
  have outside := outer.depth_eq
  -- Behind the outer pair the depth is below where the inner one starts.
  rcases Nat.eq_or_lt_of_le beyond with rfl | further
  · have closed := inner.depth_eq
    omega
  · have still := inner.depth_lt (n := j + 1) (by omega) (by omega)
    omega

end Partners

/-! ### Every index is settled -/

/-- Partners whose entries lead to each other. -/
structure Linked (program : List Instruction) (table : Array Nat) (i j : Nat) : Prop where
  partners : Partners program i j
  forth : table[i]? = some j
  back : table[j]? = some i

/-- What the table says about an index. -/
inductive Settled (program : List Instruction) (table : Array Nat) (k : Nat) : Prop where
  | command (command : Command) (here : program[k]? = some command.instruction)
      (entry : table[k]? = some k) : Settled program table k
  | start {j : Nat} (linked : Linked program table k j) : Settled program table k
  | stop {i : Nat} (linked : Linked program table i k) : Settled program table k

/-- The two ends of a loop are linked where program and table contain its slices. -/
theorem linked_of_slices (start stop : Span) (body rest : LoopTree)
    (before after : List Instruction) (front back : List Nat)
    (length : front.length = before.length) :
    Linked (before ++ (LoopTree.instructions (.loop start stop body rest) ++ after))
      (front ++ (LoopTree.partners before.length (.loop start stop body rest) ++ back)).toArray
      before.length (before.length + body.size + 1) := by
  obtain ⟨opening, forth, -, closing, backward, -⟩ :=
    Code.holds_of_slices (.loop start stop body rest) before after front back length
  rw [List.getElem?_toArray] at opening closing
  refine ⟨⟨by omega, ⟨start, opening⟩, ⟨stop, closing⟩, ?_⟩, forth, backward⟩
  rw [LoopTree.instructions_loop, List.cons_append, Nat.add_right_comm, between_split,
    List.append_assoc, ← LoopTree.length_instructions, List.take_left]
  exact balanced_instructions body

/-- Where program and table contain the slices of a tree, they settle every index of it. -/
theorem settled_of_slices (tree : LoopTree) (before after : List Instruction)
    (front back : List Nat) (length : front.length = before.length) {k : Nat} (lt : k < tree.size) :
    Settled (before ++ (tree.instructions ++ after))
      (front ++ (tree.partners before.length ++ back)).toArray (before.length + k) := by
  induction tree generalizing before after front back k with
  | nil => exact absurd lt (Nat.not_lt_zero k)
  | leaf command rest ih =>
      cases k with
      | zero =>
          exact .command command (by simp) (Code.getElem?_toArray_append _ _ _ length)
      | succ k =>
          have tail := ih (before ++ [command.instruction]) after (front ++ [before.length]) back
            (by simp [length]) (Nat.lt_of_succ_lt_succ lt)
          simpa [LoopTree.partners, Nat.add_assoc, Nat.add_comm 1 k] using tail
  | loop start stop body rest ihBody ihRest =>
      have linked := linked_of_slices start stop body rest before after front back length
      rw [Nest.size_loop] at lt
      rcases Nat.lt_trichotomy k (body.size + 1) with inside | rfl | behind
      · cases k with
        | zero => exact .start linked
        | succ k =>
            have inner := ihBody (before ++ [.loopStart start])
              (.loopEnd stop :: (LoopTree.instructions rest ++ after))
              (front ++ [before.length + body.size + 1])
              (before.length :: (LoopTree.partners (before.length + body.size + 2) rest ++ back))
              (by simp [length]) (Nat.lt_of_succ_lt_succ inside)
            simpa [LoopTree.partners, Nat.add_assoc, Nat.add_comm 1 k] using inner
      · rw [← Nat.add_assoc]
        exact .stop linked
      · obtain ⟨m, rfl⟩ := Nat.exists_eq_add_of_le (Nat.succ_le_of_lt behind)
        have outer := ihRest
          (before ++ .loopStart start :: (LoopTree.instructions body ++ [.loopEnd stop])) after
          (front ++ (before.length + body.size + 1) ::
            (LoopTree.partners (before.length + 1) body ++ [before.length])) back
          (by simp [length]) (k := m) (by omega)
        have index : before.length + (body.size + 1 + 1 + m) =
            before.length + body.size + 2 + m := by omega
        rw [Nat.succ_eq_add_one, index]
        simpa [LoopTree.partners, Nat.add_assoc] using outer

theorem settled {tree : LoopTree} {k : Nat} (lt : k < tree.instructions.length) :
    Settled tree.instructions (tree.partners 0).toArray k := by
  rw [LoopTree.length_instructions] at lt
  simpa using settled_of_slices tree [] [] [] [] rfl lt

section Settled

variable {program : List Instruction} {table : Array Nat} {i j k : Nat} {span : Span}

/-- Entries stay where they are or lead from one partner to the other. -/
theorem Settled.of_entry (settled : Settled program table i) (entry : table[i]? = some j) :
    i = j ∨ Linked program table i j ∨ Linked program table j i := by
  cases settled with
  | command command here own =>
      rw [own] at entry
      cases entry
      exact .inl rfl
  | start linked =>
      rw [linked.forth] at entry
      cases entry
      exact .inr (.inl linked)
  | stop linked =>
      rw [linked.back] at entry
      cases entry
      exact .inr (.inr linked)

theorem Settled.own {instruction : Instruction} (settled : Settled program table k)
    (here : program[k]? = some instruction) (noStart : instruction.symbol ≠ .loopStart)
    (noEnd : instruction.symbol ≠ .loopEnd) : table[k]? = some k := by
  cases settled with
  | command command _ own => exact own
  | start linked =>
      obtain ⟨span, opening⟩ := linked.partners.start
      rw [here] at opening
      cases opening
      exact absurd rfl noStart
  | stop linked =>
      obtain ⟨span, closing⟩ := linked.partners.stop
      rw [here] at closing
      cases closing
      exact absurd rfl noEnd

theorem Settled.of_loopStart (settled : Settled program table k)
    (here : program[k]? = some (.loopStart span)) : ∃ j, Linked program table k j := by
  cases settled with
  | command command other =>
      rw [here] at other
      cases command <;> cases other
  | start linked => exact ⟨_, linked⟩
  | stop linked =>
      obtain ⟨span, closing⟩ := linked.partners.stop
      rw [here] at closing
      cases closing

theorem Settled.of_loopEnd (settled : Settled program table k)
    (here : program[k]? = some (.loopEnd span)) : ∃ i, Linked program table i k := by
  cases settled with
  | command command other =>
      rw [here] at other
      cases command <;> cases other
  | start linked =>
      obtain ⟨span, opening⟩ := linked.partners.start
      rw [here] at opening
      cases opening
  | stop linked => exact ⟨_, linked⟩

end Settled

/-! ### The table is the matching -/

section Table

variable {program : List Instruction} {table table' : Array Nat}

/-- A table that settles every index of a program is its matching. -/
theorem matching_of_settled (size : table.size = program.length)
    (settled : ∀ {k}, k < program.length → Settled program table k) : Matching program table := by
  have within {i : Nat} {instruction : Instruction} (here : program[i]? = some instruction) :
      Settled program table i :=
    settled (List.getElem?_eq_some_iff.mp here).1
  have led {i j : Nat} (entry : table[i]? = some j) :
      i = j ∨ Linked program table i j ∨ Linked program table j i := by
    have lt := (Array.getElem?_eq_some_iff.mp entry).1
    exact (settled (size ▸ lt)).of_entry entry
  have partners {i j : Nat} (paired : Paired table i j) : Partners program i j := by
    have before := paired.before
    rcases led paired.entry with same | linked | linked
    · exact absurd before (by omega)
    · exact linked.partners
    · exact absurd linked.partners.before (by omega)
  refine ⟨size, ?own, ?involution, ?forward, ?backward, ?nested⟩
  case own =>
    intro i instruction here noStart noEnd
    exact (within here).own here noStart noEnd
  case involution =>
    intro i j entry
    rcases led entry with rfl | linked | linked
    · exact entry
    · exact linked.back
    · exact linked.forth
  case forward =>
    intro i start here
    obtain ⟨j, linked⟩ := (within here).of_loopStart here
    exact ⟨j, linked.forth, linked.partners.stop, linked.partners.isLeast⟩
  case backward =>
    intro j stop here
    obtain ⟨i, linked⟩ := (within here).of_loopEnd here
    exact ⟨i, linked.back, linked.partners.before, linked.partners.start⟩
  case nested =>
    intro i j i' j' first second lt
    exact (partners first).nested (partners second) lt

theorem Matching.forward_eq {i : Nat} {start : Span} (first : Matching program table)
    (second : Matching program table') (here : program[i]? = some (.loopStart start)) :
    table[i]? = table'[i]? := by
  obtain ⟨j, entry, -, least⟩ := first.forward here
  obtain ⟨j', entry', -, least'⟩ := second.forward here
  rw [entry, entry', least.unique least']

/-- A program has at most one matching. -/
theorem Matching.unique (first : Matching program table) (second : Matching program table') :
    table = table' := by
  refine Array.ext_getElem? fun k => ?_
  cases here : program[k]? with
  | none =>
      have behind := List.getElem?_eq_none_iff.mp here
      rw [Array.getElem?_eq_none (first.size ▸ behind),
        Array.getElem?_eq_none (second.size ▸ behind)]
  | some instruction =>
      cases instruction with
      | loopStart start => exact first.forward_eq second here
      | loopEnd stop =>
          -- Both entries lead back from the loop start that leads here.
          obtain ⟨i, entry, -, start, opening⟩ := first.backward here
          have forth := first.involution entry
          rw [first.forward_eq second opening] at forth
          rw [entry, second.involution forth]
      | _ => rw [first.own here nofun nofun, second.own here nofun nofun]

theorem matching_instructions (tree : LoopTree) :
    Matching tree.instructions (tree.partners 0).toArray := by
  refine matching_of_settled (by simp) ?_
  intro k lt
  exact settled lt

/-- A table is made exactly for the programs whose brackets match. -/
theorem exists_jumps_iff : (∃ table, jumps program = .ok table) ↔ Balanced program := by
  rw [← check_eq_ok_iff_balanced, ← map_jumps]
  cases jumps program with
  | error e => simp [Except.map]
  | ok table => simp [Except.map]

theorem matching_of_jumps (made : jumps program = .ok table) : Matching program table := by
  obtain ⟨tree, rfl⟩ := exists_tree_of_balanced (exists_jumps_iff.mp ⟨table, made⟩)
  rw [jumps_instructions] at made
  cases made
  exact matching_instructions tree

end Table

/-- A table is made exactly when every beginning of the program has at least as many loop starts as
ends and the whole program as many of both, and it is the one that matches the brackets. -/
theorem jumps_matching (program : List Instruction) :
    ((∃ table, jumps program = .ok table) ↔ Balanced program) ∧
      ∀ table, jumps program = .ok table ↔ Balanced program ∧ Matching program table := by
  refine ⟨exists_jumps_iff, fun table => ⟨?_, ?_⟩⟩
  · intro made
    exact ⟨exists_jumps_iff.mp ⟨table, made⟩, matching_of_jumps made⟩
  · rintro ⟨balanced, matching⟩
    obtain ⟨table', made⟩ := exists_jumps_iff.mpr balanced
    rw [made, matching.unique (matching_of_jumps made)]

/-- `[+[-]][]`: a loop with another one inside, and one behind it. -/
theorem jumps_matching_siblings :
    Matching [.loopStart (.single 0), .act .add 1 (.single 1), .loopStart (.single 2),
      .act .sub 1 (.single 3), .loopEnd (.single 4), .loopEnd (.single 5), .loopStart (.single 6),
      .loopEnd (.single 7)] #[5, 1, 4, 3, 2, 0, 7, 6] :=
  (((jumps_matching _).2 _).mp rfl).2

end Brainfuck.Loops
