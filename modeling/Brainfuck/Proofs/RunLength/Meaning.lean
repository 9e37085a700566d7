import Brainfuck.Proofs.Machine.Runs
import Brainfuck.Proofs.RunLength.Blocks
import Brainfuck.Proofs.Tape.Laws

/-!
Collapsing runs keeps what a program does. `Merges` relates a program to what is left of it after
some neighbouring actions have been merged in pairs, which is how a run collapses. A merged pair
acts as its two halves do, down to the stored cells, and brackets are never touched; so the trees of
both programs execute alike, loop by loop (`ends_collapse_iff`).
-/

namespace Brainfuck

/-! ### Trees that execute alike -/

namespace LoopTree

/-- Two trees have the same executions. -/
def Alike (a b : LoopTree) : Prop :=
  ∀ machine result after, Execution a machine result after ↔ Execution b machine result after

theorem Alike.refl (a : LoopTree) : Alike a a :=
  fun _ _ _ => Iff.rfl

theorem Alike.symm {a b : LoopTree} (h : Alike a b) : Alike b a :=
  fun machine result after => (h machine result after).symm

theorem Alike.trans {a b c : LoopTree} (first : Alike a b) (second : Alike b c) : Alike a c :=
  fun machine result after => (first machine result after).trans (second machine result after)

theorem Alike.runs_iff {a b : LoopTree} (h : Alike a b) {machine after : Machine}
    {result : Except Error Unit} : a.Runs machine result after ↔ b.Runs machine result after := by
  simp only [LoopTree.runs_iff, h machine]

theorem execution_leaf_iff {command : Command} {rest : LoopTree} {machine after : Machine}
    {result : Except Error Unit} :
    Execution (.leaf command rest) machine result after ↔
      (∃ next, command.Effect machine (.ok ()) next ∧ Execution rest next result after) ∨
        ∃ e, result = .error e ∧ command.Effect machine (.error e) after := by
  constructor
  · intro execution
    cases execution with
    | command effect tail => exact .inl ⟨_, effect, tail⟩
    | failure effect => exact .inr ⟨_, rfl, effect⟩
  · rintro (⟨next, effect, tail⟩ | ⟨e, rfl, effect⟩)
    · exact .command effect tail
    · exact .failure effect

theorem execution_act_iff {action : Action} {count : UInt32} {span : Span} {rest : LoopTree}
    {tape : Tape} {input : Option InputStream} {output : Option OutputStream} {after : Machine}
    {result : Except Error Unit} :
    Execution (.leaf (.act action count span) rest) ⟨tape, input, output⟩ result after ↔
      Execution rest ⟨Machine.act count action tape, input, output⟩ result after := by
  constructor
  · intro execution
    cases execution with
    | command effect tail =>
        cases effect
        exact tail
    | failure effect => cases effect
  · exact .command .act

theorem Alike.leaf {rest rest' : LoopTree} (command : Command) (h : Alike rest rest') :
    Alike (.leaf command rest) (.leaf command rest') := by
  intro machine result after
  simp only [execution_leaf_iff, h _ result after]

/-- One direction of `Alike.loop`: an execution of a loop is an execution of a loop whose parts have
at least the same executions. -/
theorem execution_loop_mono {start stop start' stop' : Span} {body body' rest rest' : LoopTree}
    (hbody : Alike body body') (hrest : Alike rest rest') {machine after : Machine}
    {result : Except Error Unit}
    (execution : Execution (.loop start stop body rest) machine result after) :
    Execution (.loop start' stop' body' rest') machine result after := by
  generalize h : Nest.loop start stop body rest = tree at execution
  induction execution with
  | nil => cases h
  | command effect tail ih => cases h
  | failure effect => cases h
  | leave zero tail ih =>
      cases h
      exact .leave zero ((hrest ..).mp tail)
  | iterate nonzero pass again ihPass ihAgain =>
      cases h
      exact .iterate nonzero ((hbody ..).mp pass) (ihAgain rfl)
  | abort nonzero pass ih =>
      cases h
      exact .abort nonzero ((hbody ..).mp pass)

theorem Alike.loop {start stop start' stop' : Span} {body body' rest rest' : LoopTree}
    (hbody : Alike body body') (hrest : Alike rest rest') :
    Alike (.loop start stop body rest) (.loop start' stop' body' rest') :=
  fun _ _ _ => ⟨execution_loop_mono hbody hrest, execution_loop_mono hbody.symm hrest.symm⟩

end LoopTree

/-! ### Merged actions -/

theorem Machine.act_add (action : Action) {a b : UInt32} (fits : a.toNat + b.toNat < UInt32.size)
    (tape : Tape) : act (a + b) action tape = act b action (act a action tape) := by
  have sum : (a + b).toNat = a.toNat + b.toNat := by
    rw [UInt32.toNat_add]
    exact Nat.mod_eq_of_lt fits
  cases action with
  | right => simp only [act, sum, Tape.moveRight_add]
  | left => simp only [act, sum, Tape.moveLeft_add]
  | add => exact Tape.add_add a b tape
  | sub => exact Tape.sub_add a b tape

namespace RunLength

/-- Pairs of neighbouring actions of a program, merged while their counts fit. -/
inductive Merges : List Instruction → List Instruction → Prop where
  | nil : Merges [] []
  | keep (instruction) {xs ys} (tail : Merges xs ys) :
      Merges (instruction :: xs) (instruction :: ys)
  | merge {action a b p q r xs ys} (fits : a.toNat + b.toNat < UInt32.size)
      (tail : Merges (.act action (a + b) r :: xs) ys) :
      Merges (.act action a p :: .act action b q :: xs) ys

/-- Whatever is the same on both sides may stand in front. -/
theorem Merges.append (front : List Instruction) {xs ys : List Instruction} (tail : Merges xs ys) :
    Merges (front ++ xs) (front ++ ys) := by
  induction front with
  | nil => exact tail
  | cons instruction rest ih => exact .keep instruction ih

/-- Adding up a block of one action merges it from the left. -/
theorem merges_of_foldlM {action : Action} {block : List Instruction} {first sum : Sum}
    {xs ys : List Instruction} (alike : ∀ i ∈ block, i.symbol = .act action)
    (added : block.foldlM (Sum.add action) first = .ok sum) (tail : Merges xs ys) :
    Merges (.act action first.count first.span :: (block ++ xs))
      (.act action sum.count sum.span :: ys) := by
  induction block generalizing first with
  | nil =>
      cases added
      exact .keep _ tail
  | cons next rest ih =>
      have same := alike next List.mem_cons_self
      cases next with
      | act action' count span =>
          cases same
          rw [List.foldlM_cons] at added
          by_cases fits : first.count.toNat + count.toNat < UInt32.size
          · have step : Sum.add action first (.act action count span) =
                .ok ⟨first.count + count, first.span.cover span⟩ := if_pos fits
            rw [step] at added
            exact .merge fits (ih (fun i member => alike i (List.mem_cons_of_mem _ member)) added)
          · have step : Sum.add action first (.act action count span) =
                .error (.runLengthOverflow (Symbol.act action).char (first.span.cover span)) :=
              if_neg fits
            rw [step] at added
            cases added
      | _ => cases same

theorem merges_mergeBlock {block merged xs ys : List Instruction}
    (chain : block.IsChain fun a b => a.symbol == b.symbol)
    (result : mergeBlock block = .ok merged) (tail : Merges xs ys) :
    Merges (block ++ xs) (merged ++ ys) := by
  unfold mergeBlock at result
  split at result
  · rename_i action count span rest
    cases added : rest.foldlM (Sum.add action) ⟨count, span⟩ with
    | error e =>
        rw [added] at result
        cases result
    | ok sum =>
        rw [added] at result
        cases result
        exact merges_of_foldlM (symbol_eq_of_isChain chain) added tail
  · cases result
    exact tail.append block

theorem merges_collapse {xs ys : List Instruction} (collapsed : collapse xs = .ok ys) :
    Merges xs ys := by
  have chains : ∀ block ∈ blocks xs, block.IsChain fun a b => a.symbol == b.symbol :=
    fun block member => List.isChain_of_mem_splitBy member
  have whole : (blocks xs).flatten = xs := List.flatten_splitBy ..
  unfold collapse at collapsed
  rw [← whole]
  generalize blocks xs = bs at chains collapsed
  induction bs generalizing ys with
  | nil =>
      cases collapsed
      exact .nil
  | cons block rest ih =>
      rw [List.mapM_cons] at collapsed
      cases first : mergeBlock block with
      | error e =>
          rw [first] at collapsed
          cases collapsed
      | ok merged =>
          rw [first] at collapsed
          cases others : rest.mapM mergeBlock with
          | error e =>
              rw [others] at collapsed
              cases collapsed
          | ok tails =>
              rw [others] at collapsed
              cases collapsed
              have tail : Merges rest.flatten tails.flatten :=
                ih (fun b member => chains b (List.mem_cons_of_mem _ member)) (by rw [others]; rfl)
              exact merges_mergeBlock (chains block List.mem_cons_self) first tail

/-! ### What merging keeps -/

theorem check_merges {xs ys : List Instruction} (h : Merges xs ys) :
    Loops.check xs = Loops.check ys := by
  have scanned (opened : List Span) :
      xs.foldlM Loops.openStep opened = ys.foldlM Loops.openStep opened := by
    induction h generalizing opened with
    | nil => rfl
    | keep instruction tail ih =>
        rw [List.foldlM_cons, List.foldlM_cons]
        exact bind_congr ih
    | @merge action a b p q r xs ys fits tail ih =>
        have step (count span) : Loops.openStep opened (.act action count span) = .ok opened :=
          Loops.openStep_command opened (.act action count span)
        rw [← ih, foldlM_cons_of_ok _ (step a p), foldlM_cons_of_ok _ (step b q),
          foldlM_cons_of_ok _ (step (a + b) r)]
  rw [Loops.check, Loops.check, scanned]

/-- A merged pair acts as its two halves do. -/
theorem alike_merged (action : Action) {a b : UInt32} (p q r : Span) (rest : LoopTree)
    (fits : a.toNat + b.toNat < UInt32.size) :
    LoopTree.Alike (.leaf (.act action a p) (.leaf (.act action b q) rest))
      (.leaf (.act action (a + b) r) rest) := by
  rintro ⟨tape, input, output⟩ result after
  rw [LoopTree.execution_act_iff, LoopTree.execution_act_iff, LoopTree.execution_act_iff,
    Machine.act_add action fits]

/-- Trees, each behind a loop end, that execute alike one by one. -/
def AlikeLater : List (Span × LoopTree) → List (Span × LoopTree) → Prop :=
  List.Forall₂ fun s t => LoopTree.Alike s.2 t.2

/-- Merging changes the nests of a program, but not how they execute. -/
theorem cut?_merges {xs ys : List Instruction} (h : Merges xs ys) {first : LoopTree}
    {later : List (Span × LoopTree)}
    (cut : Nest.cut? (xs.map Instruction.piece) = some (first, later)) :
    ∃ first' later', Nest.cut? (ys.map Instruction.piece) = some (first', later') ∧
      LoopTree.Alike first first' ∧ AlikeLater later later' := by
  induction h generalizing first later with
  | nil =>
      cases cut
      exact ⟨.nil, [], rfl, .refl _, .nil⟩
  | keep instruction tail ih =>
      cases instruction with
      | loopStart start =>
          simp only [List.map_cons, Instruction.piece, Nest.cut?] at cut ⊢
          split at cut
          · rename_i body stop after later rest
            cases cut
            obtain ⟨body', later', cut', alike, behind⟩ := ih rest
            cases behind with
            | @cons _ loopEnd _ others alikeAfter behind =>
                exact ⟨.loop start loopEnd.1 body' loopEnd.2, others, by simp only [cut'],
                  alike.loop alikeAfter, behind⟩
          · cases cut
      | loopEnd stop =>
          simp only [List.map_cons, Instruction.piece, Nest.cut?] at cut ⊢
          split at cut
          · rename_i first later rest
            cases cut
            obtain ⟨first', later', cut', alike, behind⟩ := ih rest
            exact ⟨.nil, (stop, first') :: later', by simp only [cut'], .refl _,
              .cons alike behind⟩
          · cases cut
      | _ =>
          simp only [List.map_cons, Instruction.piece, Nest.cut?] at cut ⊢
          split at cut
          · rename_i first later rest
            cases cut
            obtain ⟨first', later', cut', alike, behind⟩ := ih rest
            exact ⟨_, later', by simp only [cut'], alike.leaf _, behind⟩
          · cases cut
  | @merge action a b p q r xs ys fits tail ih =>
      simp only [List.map_cons, Instruction.piece, Nest.cut?] at cut
      cases rest : Nest.cut? (xs.map Instruction.piece) with
      | none =>
          rw [rest] at cut
          cases cut
      | some found =>
          rw [rest] at cut
          cases cut
          have joined : Nest.cut? ((.act action (a + b) r :: xs).map Instruction.piece) =
              some (.leaf (.act action (a + b) r) found.1, found.2) := by
            simp only [List.map_cons, Instruction.piece, Nest.cut?, rest]
          obtain ⟨first', later', cut', alike, behind⟩ := ih joined
          exact ⟨first', later', cut', (alike_merged action p q r found.1 fits).trans alike, behind⟩

/-- A collapsed program ends exactly as the program does: from the same machines, with the same
result, and leaving the same machine behind. -/
theorem ends_collapse_iff {xs ys : List Instruction} (collapsed : collapse xs = .ok ys)
    (machine : Machine) (result : Except Error Unit) (after : Machine) :
    machine.Ends xs result after ↔ machine.Ends ys result after := by
  have merged := merges_collapse collapsed
  cases verdict : Loops.check xs with
  | error e =>
      have refused : Loops.check ys = .error e := (check_merges merged).symm.trans verdict
      rw [Machine.ends_of_check_error verdict, Machine.ends_of_check_error refused]
  | ok done =>
      obtain ⟨tree, rfl⟩ := Loops.check_eq_ok_iff.mp verdict
      have cut : Nest.cut? (tree.instructions.map Instruction.piece) = some (tree, []) :=
        Nest.cut?_of_pieces (LoopTree.map_piece_instructions tree).symm
      obtain ⟨tree', later, cut', alike, behind⟩ := cut?_merges merged cut
      cases behind
      rw [← LoopTree.instructions_of_cut? cut', Machine.ends_instructions_iff,
        Machine.ends_instructions_iff, alike.runs_iff]

/-- The theorem at a program with a loop, a count of zero and a sum beyond a byte. -/
theorem ends_collapse_iff_loop :
    let xs : List Instruction := [.act .add 200 ⟨0, 0⟩, .act .add 100 ⟨1, 1⟩, .loopStart ⟨2, 2⟩,
      .act .right 0 ⟨3, 3⟩, .act .right 2 ⟨4, 4⟩, .input ⟨5, 5⟩, .act .left 1 ⟨6, 6⟩,
      .act .left 1 ⟨7, 7⟩, .act .sub 1 ⟨8, 8⟩, .loopEnd ⟨9, 9⟩]
    let ys : List Instruction := [.act .add 300 ⟨0, 1⟩, .loopStart ⟨2, 2⟩, .act .right 2 ⟨3, 4⟩,
      .input ⟨5, 5⟩, .act .left 2 ⟨6, 7⟩, .act .sub 1 ⟨8, 8⟩, .loopEnd ⟨9, 9⟩]
    collapse xs = .ok ys ∧ ∀ machine result after,
      Machine.Ends machine xs result after ↔ Machine.Ends machine ys result after :=
  ⟨by rfl, ends_collapse_iff (by rfl)⟩

end RunLength

end Brainfuck
