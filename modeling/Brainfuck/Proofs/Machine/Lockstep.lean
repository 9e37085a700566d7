import Brainfuck.Proofs.Machine.Progress
import Mathlib.Data.List.Forall2

/-!
Two machines that go through programs in step. One code shadows another when they do the same at
every index to related machines, up to breaks, where the shadow fails; so two runs stay together
until there is a break (`Code.Shadows.runFrom`). A relation between machines is a lockstep when no
instruction can tell related machines apart: they show the same current cell, every instruction
answers both alike, and what it leaves behind is related again. Every code is then its own shadow,
and related machines stay together through a whole run (`Lockstep.ends`), and through programs that
are run one after another on the same machine (`Lockstep.endsInTurn`).
-/

namespace Brainfuck

/-- Two bounded runs that have come equally far, with related machines: both have ended with the
same result, or both are still going at the same index. -/
inductive Outcome.Paired (R : Machine → Machine → Prop) : Outcome → Outcome → Prop where
  | finished {result a b} (related : R a b) : Paired R (.finished result a) (.finished result b)
  | unfinished {next a b} (related : R a b) : Paired R (.unfinished next a) (.unfinished next b)

/-! ### One run beside another -/

namespace Code

/-- Beside the first code, the second one does the same to related machines: what happens at an
index has the same result and leaves related machines, and both runs go on at the same index. The
exceptions are the breaks, at which the second run fails. -/
structure Shadows (first second : Code) (R : Machine → Machine → Prop)
    (Breaks : Nat → Machine → Machine → Prop) : Prop where
  effect : ∀ {a b} (index : Nat), R a b → Breaks index a b ∨
    ((first.effectAt index a).1 = (second.effectAt index b).1 ∧
      R (first.effectAt index a).2 (second.effectAt index b).2)
  following : ∀ {a b} (index : Nat), R a b → first.following index a = second.following index b
  breaks : ∀ {a b index}, R a b → Breaks index a b → ∃ e, (second.effectAt index b).1 = .error e

/-- Runs on related machines come equally far with the same fuel, unless the first one comes to a
break, where the second one ends. -/
theorem Shadows.runFrom {first second : Code} {R : Machine → Machine → Prop}
    {Breaks : Nat → Machine → Machine → Prop} (shadows : first.Shadows second R Breaks)
    (fuel index : Nat) {a b : Machine} (related : R a b) :
    Outcome.Paired R (first.runFrom fuel index a) (second.runFrom fuel index b) ∨
      ∃ place state state', first.Reaches index a place state ∧ R state state' ∧
        Breaks place state state' ∧
        second.EndsFrom index b (second.effectAt place state').1
          (second.effectAt place state').2 := by
  induction fuel generalizing index a b with
  | zero => exact .inl (.unfinished related)
  | succ fuel ih =>
      rcases shadows.effect index related with broken | ⟨same, next⟩
      · -- The first run is at a break already.
        obtain ⟨e, failed⟩ := shadows.breaks related broken
        refine .inr ⟨index, a, b, .refl .., related, broken, 1, ?_⟩
        rw [failed]
        exact runFrom_of_error 0 (Prod.ext failed rfl)
      · rcases left : first.effectAt index a with ⟨result, a'⟩
        rcases right : second.effectAt index b with ⟨result', b'⟩
        rw [left, right] at same next
        cases same
        cases result with
        | error e =>
            rw [runFrom_of_error fuel left, runFrom_of_error fuel right]
            exact .inl (.finished next)
        | ok done =>
            have together := shadows.following index next
            cases goesOn : first.following index a' with
            | none =>
                rw [goesOn] at together
                rw [runFrom_of_following_none fuel left goesOn,
                  runFrom_of_following_none fuel right together.symm]
                exact .inl (.finished next)
            | some place =>
                rw [goesOn] at together
                rw [runFrom_of_following fuel left goesOn,
                  runFrom_of_following fuel right together.symm]
                rcases ih place next with paired | ⟨_, _, _, reaches, related, broken, ended⟩
                · exact .inl paired
                · have step (fuel : Nat) := runFrom_of_following fuel right together.symm
                  exact .inr ⟨_, _, _, reaches.step left goesOn, related, broken,
                    (endsFrom_step step).mpr ended⟩

/-- Where the first run ends, the second one ends with the same result, unless the first one comes
to a break. -/
theorem Shadows.endsFrom {first second : Code} {R : Machine → Machine → Prop}
    {Breaks : Nat → Machine → Machine → Prop} (shadows : first.Shadows second R Breaks)
    {index : Nat} {a b after : Machine} {result : Except Error Unit} (related : R a b)
    (ended : first.EndsFrom index a result after) :
    (∃ after', second.EndsFrom index b result after' ∧ R after after') ∨
      ∃ place state state', first.Reaches index a place state ∧ R state state' ∧
        Breaks place state state' ∧
        second.EndsFrom index b (second.effectAt place state').1
          (second.effectAt place state').2 := by
  obtain ⟨fuel, finished⟩ := ended
  have both := shadows.runFrom fuel index related
  rw [finished] at both
  rcases both with paired | broken
  · generalize other : second.runFrom fuel index b = outcome at paired
    cases paired with
    | finished related' => exact .inl ⟨_, ⟨fuel, other⟩, related'⟩
  · exact .inr broken

end Code

/-! ### Indistinguishable machines -/

namespace Machine

/-- Programs whose codes shadow each other without a break end alike on related machines. `f` takes
the code of the first program to the code of the second one. -/
theorem ends_of_shadows {R : Machine → Machine → Prop} {f : Code → Code}
    {first second : List Instruction} {a b after : Machine} {result : Except Error Unit}
    (loads : Code.load second = (Code.load first).map f)
    (shadows : ∀ code : Code, code.Shadows (f code) R fun _ _ _ => False) (related : R a b)
    (ended : a.Ends first result after) :
    ∃ after', b.Ends second result after' ∧ R after after' := by
  cases loaded : Code.load first with
  | error e =>
      rw [loaded] at loads
      obtain ⟨rfl, rfl⟩ := (ends_of_load_error loaded).mp ended
      exact ⟨b, (ends_of_load_error loads).mpr ⟨rfl, rfl⟩, related⟩
  | ok code =>
      rw [loaded] at loads
      rcases (shadows code).endsFrom related ((ends_of_load_ok loaded).mp ended) with
        ⟨after', ended', related'⟩ | ⟨_, _, _, -, -, broken, -⟩
      · exact ⟨after', (ends_of_load_ok loads).mpr ended', related'⟩
      · exact broken.elim

/-- A relation between machines that no instruction can break. -/
structure Lockstep (R : Machine → Machine → Prop) : Prop where
  value : ∀ {a b}, R a b → a.tape.value = b.tape.value
  perform : ∀ {a b} (instruction : Instruction), R a b →
    (a.perform instruction).1 = (b.perform instruction).1 ∧
      R (a.perform instruction).2 (b.perform instruction).2
  flush : ∀ {a b}, R a b → a.flush.1 = b.flush.1 ∧ R a.flush.2 b.flush.2

/-- Programs that are run one after another on the same machine, each of them to its end. A record
holds how a program ended and what it left behind; the next program starts from there, also after a
failure. -/
inductive EndsInTurn : Machine → List (List Instruction) → List (Except Error Unit × Machine) → Prop
  where
  | nil {machine} : EndsInTurn machine [] []
  | cons {machine program programs result after records}
      (first : machine.Ends program result after) (others : EndsInTurn after programs records) :
      EndsInTurn machine (program :: programs) ((result, after) :: records)

theorem endsInTurn_unique {machine : Machine} {programs : List (List Instruction)}
    {records records' : List (Except Error Unit × Machine)}
    (run : machine.EndsInTurn programs records) (run' : machine.EndsInTurn programs records') :
    records = records' := by
  induction run generalizing records' with
  | nil =>
      cases run'
      rfl
  | cons first others ih =>
      cases run' with
      | cons first' others' =>
          obtain ⟨rfl, rfl⟩ := ends_unique first first'
          rw [ih others']

namespace Lockstep

variable {R : Machine → Machine → Prop} {a b after : Machine}

theorem shadows (keeps : Lockstep R) (code : Code) :
    code.Shadows code R fun _ _ _ => False where
  effect := by
    intro a b index related
    cases here : code.instructions[index]? with
    | none =>
        rw [Code.effectAt_behind here, Code.effectAt_behind here]
        exact .inr (keeps.flush related)
    | some instruction =>
        rw [Code.effectAt_of_getElem? here, Code.effectAt_of_getElem? here]
        exact .inr (keeps.perform instruction related)
  following := by
    intro a b index related
    rw [Code.following, Code.following, keeps.value related]
  breaks := fun _ broken => broken.elim

theorem flip (keeps : Lockstep R) : Lockstep fun a b => R b a where
  value related := (keeps.value related).symm
  perform instruction related :=
    ⟨(keeps.perform instruction related).1.symm, (keeps.perform instruction related).2⟩
  flush related := ⟨(keeps.flush related).1.symm, (keeps.flush related).2⟩

/-- A program that ends on one of two related machines ends on the other, with the same result. -/
theorem ends (keeps : Lockstep R) (related : R a b) {program : List Instruction}
    {result : Except Error Unit} (ended : a.Ends program result after) :
    ∃ after', b.Ends program result after' ∧ R after after' := by
  have loads : Code.load program = (Code.load program).map id := by
    rw [Except.map_id, id]
  exact ends_of_shadows loads keeps.shadows related ended

/-- Programs that end in turn on one of two related machines end in turn on the other; one by one
they have the same result, and leave related machines behind. -/
theorem endsInTurn (keeps : Lockstep R) (related : R a b) {programs : List (List Instruction)}
    {records : List (Except Error Unit × Machine)} (ended : a.EndsInTurn programs records) :
    ∃ records', b.EndsInTurn programs records' ∧
      List.Forall₂ (fun record record' => record.1 = record'.1 ∧ R record.2 record'.2)
        records records' := by
  induction ended generalizing b with
  | nil => exact ⟨[], .nil, .nil⟩
  | cons first others ih =>
      obtain ⟨after', first', related'⟩ := keeps.ends related first
      obtain ⟨records', others', paired⟩ := ih related'
      exact ⟨_, .cons first' others', .cons ⟨rfl, related'⟩ paired⟩

end Lockstep

/-- A program comes to its end on both machines or on neither. If it does, it has the same result on
both, and leaves related machines behind. -/
def EndAlike (R : Machine → Machine → Prop) (a b : Machine) (program : List Instruction) : Prop :=
  ((∃ result after, a.Ends program result after) ↔ ∃ result after, b.Ends program result after) ∧
    ∀ result after result' after', a.Ends program result after → b.Ends program result' after' →
      result = result' ∧ R after after'

theorem Lockstep.endAlike {R S : Machine → Machine → Prop} {a b : Machine} (keeps : Lockstep R)
    (there : R a b) (back : R b a) (shows : ∀ {a b}, R a b → S a b) (program : List Instruction) :
    EndAlike S a b program := by
  refine ⟨⟨?_, ?_⟩, ?_⟩
  · rintro ⟨result, after, ended⟩
    obtain ⟨after', ended', -⟩ := keeps.ends there ended
    exact ⟨result, after', ended'⟩
  · rintro ⟨result, after, ended⟩
    obtain ⟨after', ended', -⟩ := keeps.ends back ended
    exact ⟨result, after', ended'⟩
  · intro result after result' after' ended ended'
    obtain ⟨found, foundEnds, related⟩ := keeps.ends there ended
    obtain ⟨rfl, rfl⟩ := ends_unique foundEnds ended'
    exact ⟨rfl, shows related⟩

/-- Programs that are run one after another come to the end of the last one on both machines or on
neither. If they do, they have the same results one by one, and leave related machines behind. -/
def AgreeInTurn (R : Machine → Machine → Prop) (a b : Machine)
    (programs : List (List Instruction)) : Prop :=
  ((∃ records, a.EndsInTurn programs records) ↔ ∃ records, b.EndsInTurn programs records) ∧
    ∀ records records', a.EndsInTurn programs records → b.EndsInTurn programs records' →
      List.Forall₂ (fun record record' => record.1 = record'.1 ∧ R record.2 record'.2)
        records records'

theorem Lockstep.agreeInTurn {R S : Machine → Machine → Prop} {a b : Machine} (keeps : Lockstep R)
    (there : R a b) (back : R b a) (shows : ∀ {a b}, R a b → S a b)
    (programs : List (List Instruction)) : AgreeInTurn S a b programs := by
  refine ⟨⟨?_, ?_⟩, ?_⟩
  · rintro ⟨records, ended⟩
    obtain ⟨records', ended', -⟩ := keeps.endsInTurn there ended
    exact ⟨records', ended'⟩
  · rintro ⟨records, ended⟩
    obtain ⟨records', ended', -⟩ := keeps.endsInTurn back ended
    exact ⟨records', ended'⟩
  · intro records records' ended ended'
    obtain ⟨found, foundEnds, agree⟩ := keeps.endsInTurn there ended
    rw [endsInTurn_unique ended' foundEnds]
    exact agree.imp fun _ _ both => ⟨both.1, shows both.2⟩

end Machine

end Brainfuck
