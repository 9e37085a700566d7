import Brainfuck.Proofs.Emission.Listing
import Brainfuck.Proofs.Loops.Culprit
import Brainfuck.Proofs.RunLength.Meaning

/-!
Who refuses a program. Generating and running look for matching brackets on their own, the one with
its open loops at hand and the other with a table to fill. Both refuse exactly the unbalanced
programs, for the culprit, and so before and after runs have been collapsed (`rejected_alike`).
-/

namespace Brainfuck

open Loops (Balanced Culprit)

theorem Loops.not_balanced_iff {program : List Instruction} :
    ¬ Balanced program ↔ ∃ span, Culprit program span := by
  rw [← Loops.check_eq_ok_iff_balanced]
  constructor
  · intro refused
    cases verdict : Loops.check program with
    | ok done => exact absurd verdict refused
    | error e =>
        obtain ⟨span, -, culprit⟩ := Loops.check_eq_error_iff.mp verdict
        exact ⟨span, culprit⟩
  · rintro ⟨span, culprit⟩ approved
    exact Loops.not_culprit_of_balanced (Loops.check_eq_ok_iff_balanced.mp approved) span culprit

/-- Nothing is generated for a program with a culprit, and for this reason only. -/
theorem Emission.generate_eq_error_iff {layout : Emission.Layout} {program : List Instruction}
    {e : Error} : layout.generate program = .error e ↔
      ∃ span, e = .unbalancedLoop span ∧ Culprit program span := by
  rw [← Loops.check_eq_error_iff, ← Emission.map_statements layout, Emission.Layout.generate]
  cases layout.statements program with
  | ok lines => exact ⟨nofun, nofun⟩
  | error e' => exact ⟨fun same => congrArg Except.error (Except.error.inj same),
      fun same => congrArg Except.error (Except.error.inj same)⟩

/-! ### Running -/

theorem Command.Effect.failure {command : Command} {machine after : Machine} {e : Error}
    (effect : command.Effect machine (.error e) after) : ∃ why, e = .stream why := by
  cases effect with
  | readFailure read => exact ⟨_, rfl⟩
  | writeFailure write => exact ⟨_, rfl⟩

/-- Only a stream makes an execution fail. -/
theorem LoopTree.Execution.failure_stream {tree : LoopTree} {machine after : Machine}
    {result : Except Error Unit} {e : Error} (execution : tree.Execution machine result after)
    (failed : result = .error e) : ∃ why, e = .stream why := by
  induction execution with
  | nil => cases failed
  | command effect tail ih => exact ih failed
  | failure effect =>
      cases failed
      exact effect.failure
  | leave zero tail ih => exact ih failed
  | iterate nonzero pass again ihPass ihAgain => exact ihAgain failed
  | abort nonzero pass ih => exact ih failed

theorem LoopTree.Runs.failure_stream {tree : LoopTree} {machine after : Machine} {e : Error}
    (runs : tree.Runs machine (.error e) after) : ∃ why, e = .stream why := by
  cases runs with
  | failure execution => exact execution.failure_stream rfl
  | flushFailure execution flush => exact ⟨_, rfl⟩

/-- A machine refuses a program with a culprit, and is left as it was. -/
theorem Machine.ends_unbalanced_iff {machine after : Machine} {program : List Instruction}
    {span : Span} : machine.Ends program (.error (.unbalancedLoop span)) after ↔
      Culprit program span ∧ after = machine := by
  cases verdict : Loops.check program with
  | ok done =>
      have noCulprit :=
        Loops.not_culprit_of_balanced (Loops.check_eq_ok_iff_balanced.mp verdict) span
      obtain ⟨tree, rfl⟩ := Loops.check_eq_ok_iff.mp verdict
      rw [Machine.ends_instructions_iff]
      constructor
      · intro runs
        obtain ⟨why, same⟩ := runs.failure_stream
        cases same
      · rintro ⟨culprit, -⟩
        exact absurd culprit noCulprit
  | error e =>
      rw [Machine.ends_of_check_error verdict]
      obtain ⟨found, rfl, culprit⟩ := Loops.check_eq_error_iff.mp verdict
      constructor
      · rintro ⟨same, rfl⟩
        cases same
        exact ⟨culprit, rfl⟩
      · rintro ⟨culprit', rfl⟩
        rw [Loops.culprit_unique culprit' culprit]
        exact ⟨rfl, rfl⟩

/-! ### Both alike -/

theorem RunLength.culprit_collapse {program shorter : List Instruction}
    (collapsed : RunLength.collapse program = .ok shorter) (span : Span) :
    Culprit shorter span ↔ Culprit program span := by
  have same := RunLength.check_merges (RunLength.merges_collapse collapsed)
  have verdict (xs : List Instruction) :
      Culprit xs span ↔ Loops.check xs = .error (.unbalancedLoop span) := by
    rw [Loops.check_eq_error_iff]
    constructor
    · exact fun culprit => ⟨span, rfl, culprit⟩
    · rintro ⟨found, equal, culprit⟩
      cases equal
      exact culprit
  rw [verdict, verdict, same]

/-- Generating fails for exactly the unbalanced programs, and running ends with an unbalanced
bracket for exactly those. Both name the culprit, and running leaves the machine as it was. When the
runs of the program can be collapsed, all this is the same for the collapsed program, with the same
culprit. -/
theorem rejected_alike (program : List Instruction) (layout : Emission.Layout)
    (machine : Machine) :
    ((∃ e, layout.generate program = .error e) ↔ ¬ Balanced program) ∧
    ((∃ span after, machine.Ends program (.error (.unbalancedLoop span)) after) ↔
      ¬ Balanced program) ∧
    (∀ e, layout.generate program = .error e ↔
      ∃ span, e = .unbalancedLoop span ∧ Culprit program span) ∧
    (∀ span after, machine.Ends program (.error (.unbalancedLoop span)) after ↔
      Culprit program span ∧ after = machine) ∧
    ∀ shorter, RunLength.collapse program = .ok shorter →
      (∀ e, layout.generate shorter = .error e ↔
        ∃ span, e = .unbalancedLoop span ∧ Culprit program span) ∧
      ∀ span after, machine.Ends shorter (.error (.unbalancedLoop span)) after ↔
        Culprit program span ∧ after = machine := by
  refine ⟨?_, ?_, fun e => Emission.generate_eq_error_iff,
    fun span after => Machine.ends_unbalanced_iff, fun shorter collapsed => ⟨fun e => ?_,
    fun span after => ?_⟩⟩
  · simp only [Emission.generate_eq_error_iff, Loops.not_balanced_iff]
    constructor
    · rintro ⟨e, span, -, culprit⟩
      exact ⟨span, culprit⟩
    · rintro ⟨span, culprit⟩
      exact ⟨_, span, rfl, culprit⟩
  · simp only [Machine.ends_unbalanced_iff, Loops.not_balanced_iff]
    constructor
    · rintro ⟨span, after, culprit, -⟩
      exact ⟨span, culprit⟩
    · rintro ⟨span, culprit⟩
      exact ⟨span, machine, culprit, rfl⟩
  · simp only [Emission.generate_eq_error_iff, RunLength.culprit_collapse collapsed]
  · rw [Machine.ends_unbalanced_iff, RunLength.culprit_collapse collapsed]

/-- The theorem at the program `++][`, where both brackets are wrong and the first one, whose index
changes when the run before it collapses, is the culprit. -/
theorem rejected_alike_two_wrong :
    let program : List Instruction :=
      [.act .add 1 ⟨0, 0⟩, .act .add 1 ⟨1, 1⟩, .loopEnd ⟨2, 2⟩, .loopStart ⟨3, 3⟩]
    let shorter : List Instruction := [.act .add 2 ⟨0, 1⟩, .loopEnd ⟨2, 2⟩, .loopStart ⟨3, 3⟩]
    RunLength.collapse program = .ok shorter ∧ Culprit program ⟨2, 2⟩ ∧
      ∀ (machine after : Machine),
        machine.Ends shorter (.error (.unbalancedLoop ⟨2, 2⟩)) after ↔ after = machine := by
  intro program shorter
  have collapsed : RunLength.collapse program = .ok shorter := rfl
  have culprit : Culprit program ⟨2, 2⟩ := by
    have refused : Emission.Layout.generate {} program = .error (.unbalancedLoop ⟨2, 2⟩) := rfl
    have blank : Machine := ⟨.blank 1 Nat.one_pos, none, none⟩
    obtain ⟨span, same, culprit⟩ := ((rejected_alike program {} blank).2.2.1 _).mp refused
    cases same
    exact culprit
  refine ⟨collapsed, culprit, fun machine after => ?_⟩
  rw [((rejected_alike program {} machine).2.2.2.2 shorter collapsed).2]
  exact and_iff_right culprit

end Brainfuck
