import Brainfuck.Proofs.Machine.Runs

/-!
Runs that are still going. At an index a run takes the effect of the instruction there or, behind
the last instruction, of the flush; then it goes on elsewhere or is over. `Reaches` says that a run
comes to an index with a machine. From there it goes on as a run that starts there
(`Reaches.endsFrom_iff`), and all that a run comes to lies on one path (`Reaches.total`).
-/

namespace Brainfuck.Code

variable {code : Code} {index place : Nat} {machine state after : Machine}

/-! ### One index -/

/-- What happens at an index: the effect of the instruction there or, behind the last one, of the
flush. -/
def effectAt (code : Code) (index : Nat) (machine : Machine) : Except Error Unit × Machine :=
  match code.instructions[index]? with
  | some instruction => machine.perform instruction
  | none => machine.flush

/-- The index that follows on what has happened at an index. Behind the last instruction there is
none. -/
def following (code : Code) (index : Nat) (machine : Machine) : Option Nat :=
  code.instructions[index]?.map (code.next index machine.tape.value)

theorem effectAt_of_getElem? {instruction : Instruction}
    (here : code.instructions[index]? = some instruction) :
    code.effectAt index machine = machine.perform instruction := by
  rw [effectAt, here]

theorem effectAt_behind (behind : code.instructions[index]? = none) :
    code.effectAt index machine = machine.flush := by
  rw [effectAt, behind]

theorem following_of_getElem? {instruction : Instruction}
    (here : code.instructions[index]? = some instruction) :
    code.following index machine = some (code.next index machine.tape.value instruction) := by
  rw [following, here]
  rfl

theorem runFrom_of_error {e : Error} (fuel : Nat)
    (effect : code.effectAt index machine = (.error e, after)) :
    code.runFrom (fuel + 1) index machine = .finished (.error e) after := by
  cases here : code.instructions[index]? with
  | none =>
      rw [effectAt_behind here] at effect
      rw [runFrom_behind fuel here, effect]
  | some instruction =>
      rw [effectAt_of_getElem? here] at effect
      exact runFrom_of_perform_error fuel here effect

theorem runFrom_of_following_none (fuel : Nat)
    (effect : code.effectAt index machine = (.ok (), after))
    (nothing : code.following index after = none) :
    code.runFrom (fuel + 1) index machine = .finished (.ok ()) after := by
  have behind := Option.map_eq_none_iff.mp nothing
  rw [effectAt_behind behind] at effect
  rw [runFrom_behind fuel behind, effect]

theorem runFrom_of_following {next : Nat} (fuel : Nat)
    (effect : code.effectAt index machine = (.ok (), after))
    (goesOn : code.following index after = some next) :
    code.runFrom (fuel + 1) index machine = code.runFrom fuel next after := by
  obtain ⟨instruction, here, rfl⟩ := Option.map_eq_some_iff.mp goesOn
  rw [effectAt_of_getElem? here] at effect
  exact runFrom_of_perform_ok fuel here effect

/-- At an index a run performs the instruction there and goes on, or it is over. -/
theorem runFrom_cases (code : Code) (index : Nat) (machine : Machine) :
    (∃ instruction after, code.instructions[index]? = some instruction ∧
      machine.perform instruction = (.ok (), after) ∧
      ∀ fuel, code.runFrom (fuel + 1) index machine =
        code.runFrom fuel (code.next index after.tape.value instruction) after) ∨
    ∃ result after, code.effectAt index machine = (result, after) ∧
      ∀ fuel, code.runFrom (fuel + 1) index machine = .finished result after := by
  cases here : code.instructions[index]? with
  | none => exact .inr ⟨_, _, effectAt_behind here, fun fuel => runFrom_behind fuel here⟩
  | some instruction =>
      rcases performed : machine.perform instruction with ⟨e | done, after⟩
      · refine .inr ⟨.error e, after, (effectAt_of_getElem? here).trans performed, fun fuel => ?_⟩
        exact runFrom_of_perform_error fuel here performed
      · refine .inl ⟨instruction, after, rfl, performed, fun fuel => ?_⟩
        exact runFrom_of_perform_ok fuel here performed

/-! ### What a run comes to -/

/-- A run from an index comes to a place, where the machine has become the given state. -/
def Reaches (code : Code) (index : Nat) (machine : Machine) (place : Nat) (state : Machine) :
    Prop :=
  ∃ fuel, code.runFrom fuel index machine = .unfinished place state

theorem Reaches.refl (code : Code) (index : Nat) (machine : Machine) :
    code.Reaches index machine index machine :=
  ⟨0, rfl⟩

theorem Reaches.step {next : Nat} (effect : code.effectAt index machine = (.ok (), after))
    (goesOn : code.following index after = some next)
    (reaches : code.Reaches next after place state) : code.Reaches index machine place state := by
  obtain ⟨fuel, unfinished⟩ := reaches
  exact ⟨fuel + 1, (runFrom_of_following fuel effect goesOn).trans unfinished⟩

/-- A run that comes somewhere is there already, or performs an instruction first. -/
theorem Reaches.cases (reaches : code.Reaches index machine place state) :
    (index = place ∧ machine = state) ∨
      ∃ instruction after, code.instructions[index]? = some instruction ∧
        machine.perform instruction = (.ok (), after) ∧
        code.Reaches (code.next index after.tape.value instruction) after place state := by
  obtain ⟨_ | fuel, unfinished⟩ := reaches
  · cases unfinished
    exact .inl ⟨rfl, rfl⟩
  · obtain ⟨instruction, after, here, performed, goesOn⟩ | ⟨result, after, -, stops⟩ :=
      runFrom_cases code index machine
    · exact .inr ⟨instruction, after, here, performed, fuel, (goesOn fuel).symm.trans unfinished⟩
    · rw [stops fuel] at unfinished
      cases unfinished

/-- What every instruction keeps is kept up to wherever a run comes. -/
theorem Reaches.keeps {P : Machine → Prop} (reaches : code.Reaches index machine place state)
    (step : ∀ instruction m, P m → P (m.perform instruction).2) (start : P machine) :
    P state := by
  obtain ⟨fuel, unfinished⟩ := reaches
  induction fuel generalizing index machine with
  | zero =>
      cases unfinished
      exact start
  | succ fuel ih =>
      obtain ⟨instruction, after, -, performed, goesOn⟩ | ⟨result, after, -, stops⟩ :=
        runFrom_cases code index machine
      · have kept := step instruction machine start
        rw [performed] at kept
        exact ih kept ((goesOn fuel).symm.trans unfinished)
      · rw [stops fuel] at unfinished
        cases unfinished

/-- A run with more fuel goes on from where it has come. -/
theorem runFrom_add {fuel : Nat} (more : Nat)
    (unfinished : code.runFrom fuel index machine = .unfinished place state) :
    code.runFrom (fuel + more) index machine = code.runFrom more place state := by
  induction fuel generalizing index machine with
  | zero =>
      cases unfinished
      rw [Nat.zero_add]
  | succ fuel ih =>
      rw [Nat.add_right_comm]
      obtain ⟨instruction, after, -, -, goesOn⟩ | ⟨result, after, -, stops⟩ :=
        runFrom_cases code index machine
      · rw [goesOn (fuel + more)]
        exact ih ((goesOn fuel).symm.trans unfinished)
      · rw [stops fuel] at unfinished
        cases unfinished

/-- A run ends as the rest of it does. -/
theorem Reaches.endsFrom_iff {result : Except Error Unit}
    (reaches : code.Reaches index machine place state) :
    code.EndsFrom index machine result after ↔ code.EndsFrom place state result after := by
  obtain ⟨fuel, unfinished⟩ := reaches
  constructor
  · rintro ⟨total, ended⟩
    have enough := runFrom_mono fuel ended
    rw [Nat.add_comm, runFrom_add total unfinished] at enough
    exact ⟨total, enough⟩
  · rintro ⟨more, ended⟩
    exact ⟨fuel + more, (runFrom_add more unfinished).trans ended⟩

/-- Of two things that a run comes to, one comes to the other. -/
theorem Reaches.total {place' : Nat} {state' : Machine}
    (first : code.Reaches index machine place state)
    (second : code.Reaches index machine place' state') :
    code.Reaches place state place' state' ∨ code.Reaches place' state' place state := by
  obtain ⟨fuel, unfinished⟩ := first
  obtain ⟨fuel', unfinished'⟩ := second
  rcases Nat.le_total fuel fuel' with le | le
  · obtain ⟨more, rfl⟩ := Nat.exists_eq_add_of_le le
    rw [runFrom_add more unfinished] at unfinished'
    exact .inl ⟨more, unfinished'⟩
  · obtain ⟨more, rfl⟩ := Nat.exists_eq_add_of_le le
    rw [runFrom_add more unfinished'] at unfinished
    exact .inr ⟨more, unfinished⟩

/-- A run that succeeds comes to behind the last instruction, and a flush is the last thing that
happens. -/
theorem exists_flush_of_endsFrom_ok (ended : code.EndsFrom index machine (.ok ()) after) :
    ∃ place state, code.Reaches index machine place state ∧ code.instructions[place]? = none ∧
      state.flush = (.ok (), after) := by
  obtain ⟨fuel, ended⟩ := ended
  induction fuel generalizing index machine with
  | zero => cases ended
  | succ fuel ih =>
      cases here : code.instructions[index]? with
      | none =>
          rw [runFrom_behind fuel here] at ended
          injection ended with result machine
          exact ⟨index, _, .refl .., here, Prod.ext result machine⟩
      | some instruction =>
          rcases performed : machine.perform instruction with ⟨e | done, next⟩
          · rw [runFrom_of_perform_error fuel here performed] at ended
            cases ended
          · rw [runFrom_of_perform_ok fuel here performed] at ended
            obtain ⟨place, state, reaches, behind, flush⟩ := ih ended
            have effect := (effectAt_of_getElem? here).trans performed
            exact ⟨place, state, reaches.step effect (following_of_getElem? here), behind, flush⟩

end Brainfuck.Code
