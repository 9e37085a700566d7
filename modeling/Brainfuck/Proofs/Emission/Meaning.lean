import Brainfuck.Proofs.Emission.Listing
import Brainfuck.Proofs.Machine.Runs
import Brainfuck.Proofs.Tape.Growth

/-!
Generated programs do what the machine does. A `Console` is a tape between an input of bytes and an
output that takes everything; it is both a machine and a store. A command takes a console to the
same next one in both readings (`effect_iff_perform`, `run?_perform`), so trees and their bodies
execute alike, and the statements of a generated program end exactly when the program does, with the
same bytes written and consumed (`generate_means`).
-/

namespace Brainfuck.Emission

/-- A tape, the bytes still to be read with the number of those read, and the bytes written. -/
structure Console where
  tape : Tape
  input : List UInt8
  consumed : Nat := 0
  output : Array UInt8 := #[]

namespace Console

/-- A console as a machine whose streams do not fail. -/
def machine (c : Console) : Machine where
  tape := c.tape
  input := some ⟨c.input.map .byte, c.consumed⟩
  output := some { written := c.output }

/-- A console as a store of a generated program. -/
def store (c : Console) : Store :=
  ⟨.ofTape c.tape, c.input, c.consumed, c.output⟩

/-! ### One command -/

/-- What a command does to a console. -/
def perform : Command → Console → Console
  | .act action count _, c => { c with tape := Machine.act count action c.tape }
  | .output _, c => { c with output := c.output.push c.tape.value }
  | .input _, ⟨tape, [], consumed, output⟩ => ⟨tape, [], consumed, output⟩
  | .input _, ⟨tape, value :: rest, consumed, output⟩ =>
      ⟨tape.set value, rest, consumed + 1, output⟩

theorem perform_machine (command : Command) (c : Console) :
    c.machine.perform command.instruction = (.ok (), (c.perform command).machine) := by
  obtain ⟨tape, input, consumed, output⟩ := c
  cases command with
  | act action count span => rfl
  | output span => rfl
  | input span => cases input <;> rfl

theorem effect_iff_perform {command : Command} {c : Console} {result : Except Error Unit}
    {after : Machine} :
    command.Effect c.machine result after ↔
      result = .ok () ∧ after = (c.perform command).machine := by
  rw [Command.effect_iff, perform_machine, Prod.ext_iff]
  exact and_congr eq_comm eq_comm

theorem run?_moveRight (c : Console) :
    Step.run? .moveRight c.store = some { c with tape := c.tape.move .right 1 }.store := by
  simp [Step.run?, store, Buffer.moveRight?_ofTape, Tape.move]

theorem run?_moveLeft (c : Console) :
    Step.run? .moveLeft c.store = some { c with tape := c.tape.move .left 1 }.store := by
  simp [Step.run?, store, Buffer.moveLeft?_ofTape, Tape.move]

/-- A step that moves by one, repeated, moves by the number of repetitions. -/
theorem repeat?_move {step : Step} {side : Tape.Side}
    (one : ∀ c : Console, step.run? c.store = some { c with tape := c.tape.move side 1 }.store)
    (count : Nat) (c : Console) :
    step.repeat? count c.store = some { c with tape := c.tape.move side count }.store := by
  rw [Tape.move_eq_iterate]
  induction count generalizing c with
  | zero => rfl
  | succ count ih =>
      rw [Step.repeat?, one, Function.iterate_succ_apply]
      exact ih _

theorem run?_add (amount : UInt32) (c : Console) :
    Step.run? (.add amount.toNat) c.store = some { c with tape := c.tape.add amount }.store := by
  simp [Step.run?, store, Buffer.add?_ofTape]

theorem run?_subtract (amount : UInt32) (c : Console) :
    Step.run? (.subtract amount.toNat) c.store =
      some { c with tape := c.tape.sub amount }.store := by
  simp [Step.run?, store, Buffer.subtract?_ofTape]

theorem run?_increment (c : Console) :
    Step.run? .increment c.store = some { c with tape := c.tape.add 1 }.store := by
  simp [Step.run?, store, Buffer.increment?_ofTape]

theorem run?_decrement (c : Console) :
    Step.run? .decrement c.store = some { c with tape := c.tape.sub 1 }.store := by
  simp [Step.run?, store, Buffer.decrement?_ofTape]

theorem run?_onceStep (action : Action) (span : Span) (c : Console) :
    (onceStep action).run? c.store = some (c.perform (.act action 1 span)).store := by
  cases action with
  | right => exact run?_moveRight c
  | left => exact run?_moveLeft c
  | add => exact run?_increment c
  | sub => exact run?_decrement c

theorem run?_countedStep (count : UInt32) (action : Action) (span : Span) (c : Console) :
    (countedStep count.toNat action).run? c.store =
      some (c.perform (.act action count span)).store := by
  cases action with
  | right => exact repeat?_move run?_moveRight _ c
  | left => exact repeat?_move run?_moveLeft _ c
  | add => exact run?_add count c
  | sub => exact run?_subtract count c

theorem run?_perform (command : Command) (c : Console) :
    (commandStatement command).run? c.store = some (c.perform command).store := by
  cases command with
  | act action count span =>
      by_cases once : count = 1
      · subst once
        exact run?_onceStep action span c
      · rw [commandStatement, if_neg once]
        exact run?_countedStep count action span c
  | output span =>
      simp [commandStatement, Statement.run?, Step.run?, store, perform, Buffer.read?_ofTape]
  | input span =>
      obtain ⟨tape, input, consumed, output⟩ := c
      cases input with
      | nil => rfl
      | cons value rest =>
          simp [commandStatement, Statement.run?, Step.run?, store, perform, Buffer.write?_ofTape]

/-! ### Executions -/

theorem read?_store (c : Console) : c.store.tape.read? = some c.machine.tape.value :=
  Buffer.read?_ofTape c.tape

/-- An execution of a tree on a console comes to its end without a failure, on a console to which an
execution of the tree's body comes as well. -/
theorem execution_treeBody {tree : LoopTree} {c : Console} {machine after : Machine}
    {result : Except Error Unit} (here : machine = c.machine)
    (execution : tree.Execution machine result after) :
    ∃ last : Console, result = .ok () ∧ after = last.machine ∧
      Body.Execution (treeBody tree) c.store (some last.store) := by
  induction execution generalizing c with
  | nil => exact ⟨c, rfl, here, .nil⟩
  | command effect tail ih =>
      subst here
      obtain ⟨last, ok, same, behind⟩ := ih (effect_iff_perform.mp effect).2
      exact ⟨last, ok, same, .statement (run?_perform _ c) behind⟩
  | failure effect =>
      subst here
      cases (effect_iff_perform.mp effect).1
  | leave zero tail ih =>
      obtain ⟨last, ok, same, behind⟩ := ih here
      subst here
      exact ⟨last, ok, same, .leave (by rw [read?_store, zero]) behind⟩
  | iterate nonzero pass again ihPass ihAgain =>
      obtain ⟨next, -, same, passed⟩ := ihPass here
      obtain ⟨last, ok, same, behind⟩ := ihAgain same
      subst here
      exact ⟨last, ok, same, .iterate (read?_store c) nonzero passed behind⟩
  | abort nonzero pass ih =>
      obtain ⟨next, ok, -⟩ := ih here
      cases ok

/-- An execution of the body of a tree on a console meets nothing undefined, and ends on a console
on which an execution of the tree ends as well. -/
theorem execution_of_treeBody {tree : LoopTree} {c : Console} {body : Body} {store : Store}
    {ending : Option Store} (shape : body = treeBody tree) (here : store = c.store)
    (execution : body.Execution store ending) :
    ∃ last : Console, ending = some last.store ∧
      tree.Execution c.machine (.ok ()) last.machine := by
  induction execution generalizing tree c with
  | nil =>
      cases tree <;> cases shape
      exact ⟨c, congrArg some here, .nil⟩
  | statement effect tail ih =>
      cases tree <;> cases shape
      subst here
      rw [run?_perform] at effect
      obtain ⟨last, same, behind⟩ := ih rfl (Option.some.inj effect).symm
      exact ⟨last, same, .command (effect_iff_perform.mpr ⟨rfl, rfl⟩) behind⟩
  | badStatement undefined =>
      cases tree <;> cases shape
      subst here
      rw [run?_perform] at undefined
      cases undefined
  | leave zero tail ih =>
      cases tree <;> cases shape
      subst here
      rw [read?_store] at zero
      obtain ⟨last, same, behind⟩ := ih rfl rfl
      exact ⟨last, same, .leave (Option.some.inj zero) behind⟩
  | iterate found nonzero pass again ihPass ihAgain =>
      have whole := shape
      cases tree <;> cases shape
      subst here
      rw [read?_store] at found
      cases found
      obtain ⟨next, same, passed⟩ := ihPass rfl rfl
      obtain ⟨last, same, behind⟩ := ihAgain whole (Option.some.inj same)
      exact ⟨last, same, .iterate nonzero passed behind⟩
  | badPass found nonzero pass ih =>
      cases tree <;> cases shape
      obtain ⟨last, same, -⟩ := ih rfl here
      cases same
  | badCell undefined =>
      subst here
      rw [read?_store] at undefined
      cases undefined

/-- The machine that a console becomes when a program has ended on it. -/
def flushed (c : Console) : Machine :=
  { c.machine with output := some { written := c.output, flushes := 1 } }

theorem execution_of_ends {tree : LoopTree} {c : Console} {result : Except Error Unit}
    {after : Machine} (ends : c.machine.Ends tree.instructions result after) :
    ∃ last : Console, result = .ok () ∧ after = last.flushed ∧
      Body.Execution (treeBody tree) c.store (some last.store) := by
  rcases LoopTree.runs_iff.mp (Machine.ends_instructions_iff.mp ends) with
    ⟨machine, execution, flush⟩ | ⟨e, failed, execution⟩
  · obtain ⟨last, -, rfl, body⟩ := execution_treeBody rfl execution
    cases flush
    exact ⟨last, rfl, rfl, body⟩
  · obtain ⟨last, ok, -⟩ := execution_treeBody rfl execution
    cases ok

theorem ends_of_execution {tree : LoopTree} {c : Console} {ending : Option Store}
    (execution : Body.Execution (treeBody tree) c.store ending) :
    ∃ last : Console, ending = some last.store ∧
      c.machine.Ends tree.instructions (.ok ()) last.flushed := by
  obtain ⟨last, same, behind⟩ := execution_of_treeBody rfl rfl execution
  refine ⟨last, same, Machine.ends_instructions_iff.mpr (LoopTree.runs_iff.mpr ?_)⟩
  exact .inl ⟨last.machine, behind, rfl⟩

/-- A console before anything has been read or written. -/
def start (layout : Layout) (input : List UInt8) : Console where
  tape := .blank layout.tapeSize layout.tapeSize_pos
  input := input

theorem start?_eq (layout : Layout) (input : List UInt8) :
    Store.start? layout.tapeSize input = some (start layout input).store := by
  rw [Store.start?, Buffer.construct?_eq layout.tapeSize layout.tapeSize_pos]
  rfl

end Console

/-- A machine with a new tape as long as those of generated programs, some bytes of input, and an
output that takes everything. -/
def Layout.machine (layout : Layout) (input : List UInt8) : Machine where
  tape := .blank layout.tapeSize layout.tapeSize_pos
  input := some (.ofBytes input)
  output := some {}

/-- The statement lines of a generated program read as a body. On every input this body comes upon
nothing undefined; it ends exactly when the machine comes to the end of the program, and then the
machine has not failed, and both have written the same bytes and consumed equally many. -/
theorem generate_means {layout : Layout} {program : List Instruction} {source : String}
    (generated : layout.generate program = .ok source) :
    ∃ lines body, layout.statements program = .ok lines ∧ source = layout.enclose lines ∧
      Body.read? lines.toList = some body ∧
      ∀ input : List UInt8, ∃ start, Store.start? layout.tapeSize input = some start ∧
        ¬ body.Execution start none ∧
        ((∃ last, body.Execution start (some last)) ↔
          ∃ result after, (layout.machine input).Ends program result after) ∧
        ∀ last result after, body.Execution start (some last) →
          (layout.machine input).Ends program result after →
            result = .ok () ∧ after.output.map (·.written) = some last.output ∧
              after.input.map (·.bytesRead) = some last.consumed := by
  cases written : layout.statements program with
  | error e =>
      rw [Layout.generate, written] at generated
      cases generated
  | ok lines =>
      rw [Layout.generate, written] at generated
      obtain ⟨tree, rfl, read⟩ := read?_statements written
      refine ⟨lines, treeBody tree, rfl, (Except.ok.inj generated).symm, read, fun input => ?_⟩
      refine ⟨_, Console.start?_eq layout input, ?_, ⟨?_, ?_⟩, ?_⟩
      · intro undefined
        obtain ⟨last, same, -⟩ := Console.ends_of_execution undefined
        cases same
      · rintro ⟨last, execution⟩
        obtain ⟨last, -, ends⟩ := Console.ends_of_execution execution
        exact ⟨.ok (), last.flushed, ends⟩
      · rintro ⟨result, after, ends⟩
        obtain ⟨last, -, -, execution⟩ := Console.execution_of_ends (c := .start layout input) ends
        exact ⟨last.store, execution⟩
      · intro final result after execution ends
        obtain ⟨last, same, ends'⟩ := Console.ends_of_execution execution
        obtain ⟨rfl, rfl⟩ := Machine.ends_unique ends ends'
        cases same
        exact ⟨rfl, rfl, rfl⟩

/-- The theorem at a loop with a move of three cells, a sum beyond a byte and a count of zero. -/
theorem generate_means_loop :
    let layout : Layout := { indentWidth := 2, tapeSize := 1 }
    let program : List Instruction := [.input ⟨0, 0⟩, .loopStart ⟨1, 1⟩, .output ⟨2, 2⟩,
      .act .left 3 ⟨3, 5⟩, .act .add 300 ⟨6, 305⟩, .act .right 0 ⟨306, 306⟩, .loopEnd ⟨307, 307⟩]
    let source := layout.enclose #["  tape.input();", "  while (tape.read() != 0) \x7b",
      "    tape.output();", "    for (std::size_t i = 0; i < 3; ++i) tape.move_left();",
      "    tape.current() += 300;", "    for (std::size_t i = 0; i < 0; ++i) tape.move_right();",
      "  \x7d"]
    layout.generate program = .ok source ∧
      ∃ lines body, layout.statements program = .ok lines ∧ source = layout.enclose lines ∧
        Body.read? lines.toList = some body ∧
        ∀ input : List UInt8, ∃ start, Store.start? layout.tapeSize input = some start ∧
          ¬ body.Execution start none ∧
          ((∃ last, body.Execution start (some last)) ↔
            ∃ result after, (layout.machine input).Ends program result after) ∧
          ∀ last result after, body.Execution start (some last) →
            (layout.machine input).Ends program result after →
              result = .ok () ∧ after.output.map (·.written) = some last.output ∧
                after.input.map (·.bytesRead) = some last.consumed :=
  ⟨by rfl, generate_means (by rfl)⟩

end Brainfuck.Emission
