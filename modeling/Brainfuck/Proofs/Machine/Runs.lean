import Brainfuck.Proofs.Execution
import Brainfuck.Proofs.Machine.JumpTable

/-!
Runs that end. `Ends` says that some amount of fuel brings a program to its end; the result and the
machine it leaves do not depend on the amount (`ends_unique`). A run of a program follows its tree:
an execution of a tree moves the counter from the front of the tree's slice to behind it, and a run
that ends has executed every tree that it entered (`ends_instructions_iff`).
-/

namespace Brainfuck

namespace Code

/-- From an index on, some amount of fuel brings the code to its end. -/
def EndsFrom (code : Code) (index : Nat) (machine : Machine) (result : Except Error Unit)
    (after : Machine) : Prop :=
  ∃ fuel, code.runFrom fuel index machine = .finished result after

/-- What is left of a run after a part of it: a failure is the end, and otherwise the run goes on
from an index. -/
def Resumes (code : Code) (index : Nat) (machine : Machine) (result : Except Error Unit)
    (after : Machine) : Except Error Unit → Prop
  | .ok () => code.EndsFrom index machine result after
  | .error e => result = .error e ∧ after = machine

variable {code : Code} {index next : Nat} {machine after last : Machine}
  {result : Except Error Unit}

/-! ### One instruction -/

theorem runFrom_of_perform_ok {instruction : Instruction} (fuel : Nat)
    (here : code.instructions[index]? = some instruction)
    (performed : machine.perform instruction = (.ok (), after)) :
    code.runFrom (fuel + 1) index machine =
      code.runFrom fuel (code.next index after.tape.value instruction) after := by
  simp only [runFrom, here, performed]

theorem runFrom_of_perform_error {instruction : Instruction} {e : Error} (fuel : Nat)
    (here : code.instructions[index]? = some instruction)
    (performed : machine.perform instruction = (.error e, after)) :
    code.runFrom (fuel + 1) index machine = .finished (.error e) after := by
  simp only [runFrom, here, performed]

theorem runFrom_behind (fuel : Nat) (behind : code.instructions[index]? = none) :
    code.runFrom (fuel + 1) index machine = .finished machine.flush.1 machine.flush.2 := by
  simp only [runFrom, behind]

/-- More fuel changes nothing about a run that has ended. -/
theorem runFrom_mono {fuel : Nat} (more : Nat)
    (ended : code.runFrom fuel index machine = .finished result after) :
    code.runFrom (fuel + more) index machine = .finished result after := by
  induction fuel generalizing index machine with
  | zero => cases ended
  | succ fuel ih =>
      rw [Nat.add_right_comm]
      cases here : code.instructions[index]? with
      | none =>
          rw [runFrom_behind _ here] at ended ⊢
          exact ended
      | some instruction =>
          rcases performed : machine.perform instruction with ⟨_ | _, last⟩
          · rw [runFrom_of_perform_error _ here performed] at ended ⊢
            exact ended
          · rw [runFrom_of_perform_ok _ here performed] at ended ⊢
            exact ih ended

theorem endsFrom_unique {result' : Except Error Unit} {after' : Machine}
    (first : code.EndsFrom index machine result after)
    (second : code.EndsFrom index machine result' after') : result = result' ∧ after = after' := by
  obtain ⟨fuel, ended⟩ := first
  obtain ⟨fuel', ended'⟩ := second
  have same := (runFrom_mono fuel' ended).symm.trans
    (Nat.add_comm fuel fuel' ▸ runFrom_mono fuel ended')
  cases same
  exact ⟨rfl, rfl⟩

/-- A run ends when it ends one instruction later. -/
theorem endsFrom_step (step : ∀ fuel, code.runFrom (fuel + 1) index machine =
      code.runFrom fuel next last) :
    code.EndsFrom index machine result after ↔ code.EndsFrom next last result after := by
  constructor
  · rintro ⟨_ | fuel, ended⟩
    · cases ended
    · exact ⟨fuel, (step fuel).symm.trans ended⟩
  · rintro ⟨fuel, ended⟩
    exact ⟨fuel + 1, (step fuel).trans ended⟩

/-- A run that has come to its end is there with any fuel. -/
theorem endsFrom_finish {ending : Except Error Unit}
    (finish : ∀ fuel, code.runFrom (fuel + 1) index machine = .finished ending last) :
    code.EndsFrom index machine result after ↔ result = ending ∧ after = last := by
  constructor
  · rintro ⟨_ | fuel, ended⟩
    · cases ended
    · cases (finish fuel).symm.trans ended
      exact ⟨rfl, rfl⟩
  · rintro ⟨rfl, rfl⟩
    exact ⟨1, finish 0⟩

/-! ### The two ends of a loop -/

section Loop

variable {start stop : Span} {body rest : LoopTree}

/-- Where a loop of a held tree leads: behind its end when the cell is zero, into its body
otherwise. -/
def loopTarget (index : Nat) (body : LoopTree) (cell : UInt8) : Nat :=
  if cell = 0 then index + body.size + 2 else index + 1

theorem runFrom_loopStart (held : code.Holds index (.loop start stop body rest)) (fuel : Nat) :
    code.runFrom (fuel + 1) index machine =
      code.runFrom fuel (loopTarget index body machine.tape.value) machine := by
  obtain ⟨here, partner, -, -, -, -⟩ := held
  rw [runFrom_of_perform_ok fuel here rfl]
  simp only [Code.next, Array.getD_eq_getD_getElem?, partner, Option.getD_some]
  rfl

/-- A loop end tests the cell like the start of its loop, and leads to the same places. -/
theorem runFrom_loopEnd (held : code.Holds index (.loop start stop body rest)) (fuel : Nat) :
    code.runFrom (fuel + 1) (index + body.size + 1) machine =
      code.runFrom fuel (loopTarget index body machine.tape.value) machine := by
  obtain ⟨-, -, -, here, partner, -⟩ := held
  rw [runFrom_of_perform_ok fuel here rfl]
  simp only [Code.next, Array.getD_eq_getD_getElem?, partner, Option.getD_some]
  rfl

theorem behind_loop (start stop : Span) (index : Nat) (body rest : LoopTree) :
    index + body.size + 2 + rest.size = index + (Nest.loop start stop body rest).size := by
  rw [Nest.size_loop]
  omega

end Loop

/-! ### Executions move the counter -/

theorem next_command (index : Nat) (cell : UInt8) (command : Command) :
    code.next index cell command.instruction = index + 1 := by
  cases command <;> rfl

/-- An execution of a tree takes a run from the front of the tree to behind it, unless it fails. -/
theorem endsFrom_iff_resumes {tree : LoopTree} {ending : Except Error Unit}
    (execution : tree.Execution machine ending last) (held : code.Holds index tree) :
    code.EndsFrom index machine result after ↔
      code.Resumes (index + tree.size) last result after ending := by
  induction execution generalizing index with
  | nil => rfl
  | @command command rest machine next ending last effect tail ih =>
      have performed := Command.effect_iff.mp effect
      have step (fuel : Nat) := runFrom_of_perform_ok fuel held.at_leaf performed
      rw [endsFrom_step step, next_command, ih held.after_leaf, Nest.size_leaf, Nat.add_right_comm]
      rfl
  | failure effect =>
      have performed := Command.effect_iff.mp effect
      exact endsFrom_finish fun fuel => runFrom_of_perform_error fuel held.at_leaf performed
  | @leave start stop body rest machine ending last zero tail ih =>
      rw [endsFrom_step (runFrom_loopStart held), loopTarget, if_pos zero, ih held.after_loop,
        behind_loop start stop index body rest]
  | @iterate start stop body rest machine next ending last nonzero pass again ihPass ihAgain =>
      rw [endsFrom_step (runFrom_loopStart held), loopTarget, if_neg nonzero, ihPass held.in_loop]
      -- Behind the body stands the loop end, which does what the loop start would do.
      change code.EndsFrom (index + 1 + body.size) next result after ↔ _
      rw [Nat.add_right_comm, endsFrom_step (runFrom_loopEnd held),
        ← endsFrom_step (runFrom_loopStart held)]
      exact ihAgain held
  | @abort start stop body rest machine e last nonzero pass ih =>
      rw [endsFrom_step (runFrom_loopStart held), loopTarget, if_neg nonzero, ih held.in_loop]
      rfl

/-- A run has an execution of a tree at its front, and unless this fails, goes on behind the tree
with no more than some fuel. -/
def Passes (code : Code) (fuel index : Nat) (tree : LoopTree) (machine : Machine)
    (result : Except Error Unit) (after : Machine) : Prop :=
  ∃ ending last, tree.Execution machine ending last ∧
    (ending = .ok () →
      ∃ left ≤ fuel, code.runFrom left (index + tree.size) last = .finished result after)

/-- An execution at the front of a run may become part of a longer one that leads to the same
place. -/
theorem Passes.extend {fuel fuel' index' : Nat} {tree tree' : LoopTree} {machine' : Machine}
    (passes : code.Passes fuel index tree machine result after)
    (longer : ∀ ending last, tree.Execution machine ending last →
      tree'.Execution machine' ending last)
    (place : index + tree.size = index' + tree'.size) (enough : fuel ≤ fuel') :
    code.Passes fuel' index' tree' machine' result after := by
  obtain ⟨ending, last, execution, goesOn⟩ := passes
  refine ⟨ending, last, longer ending last execution, fun ok => ?_⟩
  obtain ⟨left, most, ended⟩ := goesOn ok
  rw [place] at ended
  exact ⟨left, Nat.le_trans most enough, ended⟩

/-- A run that ends has executed every tree that it entered. -/
theorem passes_of_finished {fuel : Nat} {tree : LoopTree} (held : code.Holds index tree)
    (ended : code.runFrom fuel index machine = .finished result after) :
    code.Passes fuel index tree machine result after := by
  -- The body of a loop is a smaller tree, but the loop after one pass is not: so on the fuel.
  induction fuel using Nat.strongRecOn generalizing index tree machine with
  | _ fuel ih =>
      cases tree with
      | nil => exact ⟨.ok (), machine, .nil, fun _ => ⟨fuel, Nat.le_refl _, ended⟩⟩
      | leaf command rest =>
          cases fuel with
          | zero => cases ended
          | succ fuel =>
              rcases performed : machine.perform command.instruction with ⟨e | done, next⟩
              · exact ⟨.error e, next, .failure (Command.effect_iff.mpr performed), nofun⟩
              · rw [runFrom_of_perform_ok fuel held.at_leaf performed, next_command] at ended
                have effect := Command.effect_iff.mpr performed
                exact (ih fuel (Nat.lt_succ_self _) held.after_leaf ended).extend
                  (fun _ _ tail => .command effect tail) (Nat.add_right_comm ..) (Nat.le_succ _)
      | loop start stop body rest =>
          cases fuel with
          | zero => cases ended
          | succ fuel =>
              rw [runFrom_loopStart held] at ended
              by_cases zero : machine.tape.value = 0
              · rw [loopTarget, if_pos zero] at ended
                exact (ih fuel (Nat.lt_succ_self _) held.after_loop ended).extend
                  (fun _ _ tail => .leave zero tail) (behind_loop ..) (Nat.le_succ _)
              · rw [loopTarget, if_neg zero] at ended
                obtain ⟨ending, next, pass, goesOn⟩ :=
                  ih fuel (Nat.lt_succ_self _) held.in_loop ended
                cases ending with
                | error e => exact ⟨.error e, next, .abort zero pass, nofun⟩
                | ok done =>
                    obtain ⟨_ | left, most, ended⟩ := goesOn rfl
                    · cases ended
                    · rw [Nat.add_right_comm, runFrom_loopEnd held,
                        ← runFrom_loopStart held] at ended
                      have less : left + 1 < fuel + 1 := Nat.lt_succ_of_le most
                      exact (ih (left + 1) less held ended).extend
                        (fun _ _ again => .iterate zero pass again) rfl (Nat.le_of_lt less)

end Code

namespace Machine

/-- Some amount of fuel brings a program to its end, with this result and this machine. -/
def Ends (machine : Machine) (program : List Instruction) (result : Except Error Unit)
    (after : Machine) : Prop :=
  ∃ fuel, machine.run fuel program = .finished result after

variable {machine after : Machine} {program : List Instruction} {result : Except Error Unit}

theorem ends_of_load_ok {code : Code} (loaded : Code.load program = .ok code) :
    machine.Ends program result after ↔ code.EndsFrom 0 machine result after := by
  simp only [Ends, run, loaded, Code.EndsFrom]

theorem ends_of_load_error {e : Error} (refused : Code.load program = .error e) :
    machine.Ends program result after ↔ result = .error e ∧ after = machine := by
  simp only [Ends, run, refused]
  constructor
  · rintro ⟨fuel, ended⟩
    cases ended
    exact ⟨rfl, rfl⟩
  · rintro ⟨rfl, rfl⟩
    exact ⟨0, rfl⟩

/-- A program ends in one way, if it does. -/
theorem ends_unique {result' : Except Error Unit} {after' : Machine}
    (first : machine.Ends program result after) (second : machine.Ends program result' after') :
    result = result' ∧ after = after' := by
  cases loaded : Code.load program with
  | ok code =>
      exact Code.endsFrom_unique ((ends_of_load_ok loaded).mp first)
        ((ends_of_load_ok loaded).mp second)
  | error e =>
      obtain ⟨rfl, rfl⟩ := (ends_of_load_error loaded).mp first
      obtain ⟨rfl, rfl⟩ := (ends_of_load_error loaded).mp second
      exact ⟨rfl, rfl⟩

/-- A program whose brackets do not match ends at once, and leaves the machine as it is. -/
theorem ends_of_check_error {e : Error} (refused : Loops.check program = .error e) :
    machine.Ends program result after ↔ result = .error e ∧ after = machine := by
  apply ends_of_load_error
  rw [Code.load, Loops.jumps_of_check_error refused]
  rfl

/-- The program of a tree ends as the runs of the tree do. -/
theorem ends_instructions_iff {tree : LoopTree} :
    machine.Ends tree.instructions result after ↔ tree.Runs machine result after := by
  let code : Code := ⟨tree.instructions.toArray, (tree.partners 0).toArray⟩
  have held : code.Holds 0 tree := Code.holds_load tree
  have behind : code.instructions[0 + tree.size]? = none := by simp [code]
  have flushed (last : Machine) : code.EndsFrom (0 + tree.size) last result after ↔
      last.flush = (result, after) := by
    rw [Code.endsFrom_finish fun fuel => Code.runFrom_behind fuel behind, Prod.ext_iff]
    exact and_congr eq_comm eq_comm
  rw [ends_of_load_ok (Code.load_instructions tree), LoopTree.runs_iff]
  constructor
  · intro ends
    obtain ⟨fuel, ended⟩ := id ends
    obtain ⟨ending, last, execution, -⟩ := Code.passes_of_finished held ended
    have resumes := (Code.endsFrom_iff_resumes execution held).mp ends
    cases ending with
    | ok done => exact .inl ⟨last, execution, (flushed last).mp resumes⟩
    | error e =>
        obtain ⟨rfl, rfl⟩ := resumes
        exact .inr ⟨e, rfl, execution⟩
  · rintro (⟨last, execution, flush⟩ | ⟨e, rfl, execution⟩)
    · exact (Code.endsFrom_iff_resumes execution held).mpr ((flushed last).mpr flush)
    · exact (Code.endsFrom_iff_resumes execution held).mpr ⟨rfl, rfl⟩

/-- A program whose brackets match has exactly one tree, and it ends exactly as this tree runs: from
the same machines, with the same result, and leaving the same machine behind. -/
theorem ends_iff_runs (balanced : Loops.Balanced program) :
    (∃! tree : LoopTree, tree.instructions = program) ∧
      ∀ tree : LoopTree, tree.instructions = program → ∀ machine result after,
        machine.Ends program result after ↔ tree.Runs machine result after := by
  obtain ⟨tree, rfl⟩ := Loops.exists_tree_of_balanced balanced
  refine ⟨⟨tree, rfl, fun other same => LoopTree.instructions_injective same⟩, ?_⟩
  intro other same machine result after
  rw [← same]
  exact ends_instructions_iff

/-- The theorem at the program `,[.[-]<,]`, where a loop stands within a loop. -/
theorem ends_iff_runs_nested :
    let program : List Instruction := [.input ⟨0, 0⟩, .loopStart ⟨1, 1⟩, .output ⟨2, 2⟩,
      .loopStart ⟨3, 3⟩, .act .sub 1 ⟨4, 4⟩, .loopEnd ⟨5, 5⟩, .act .left 1 ⟨6, 6⟩, .input ⟨7, 7⟩,
      .loopEnd ⟨8, 8⟩]
    Loops.Balanced program ∧
      (∃! tree : LoopTree, tree.instructions = program) ∧
        ∀ tree : LoopTree, tree.instructions = program → ∀ machine result after,
          Ends machine program result after ↔ tree.Runs machine result after :=
  ⟨by decide, ends_iff_runs (by decide)⟩

end Machine

end Brainfuck
