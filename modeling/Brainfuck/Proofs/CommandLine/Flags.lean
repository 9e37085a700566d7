import Brainfuck.CommandLine.Arguments

/-!
What the flag of the execute mode does among other arguments. Wherever it is added, the same options
are asked for in the other mode, or nothing that could be done (`AddsExecute.ofArguments_eq`).
-/

namespace Brainfuck.CommandLine

/-! ### One flag more among the items -/

/-- What is asked for when the flag of the execute mode is added. It goes with no other mode. -/
def Request.executing : Request → Request
  | .version => .version
  | .misuse => .misuse
  | .start options =>
      if options.mode = .generate then .start { options with mode := .execute } else .misuse

namespace Draft

variable {plain marked : Draft}

/-- The second draft is the first with the flag of the execute mode. -/
structure Executes (plain marked : Draft) : Prop where
  input : marked.input = plain.input
  settings : marked.settings = plain.settings
  flags : marked.flags.Perm (.execute :: plain.flags)

theorem Executes.mode? (executes : plain.Executes marked) :
    marked.mode? = if plain.mode? = some .generate then some .execute else none := by
  have execute : marked.flags.count .execute = plain.flags.count .execute + 1 :=
    (executes.flags.count_eq _).trans List.count_cons_self
  have executable : marked.flags.count .executable = plain.flags.count .executable :=
    (executes.flags.count_eq _).trans (List.count_cons_of_ne (by decide))
  rw [Draft.mode?, Draft.mode?, execute, executable]
  generalize plain.flags.count .execute = given
  generalize plain.flags.count .executable = built
  match given, built with
  | 0, 0 => rfl
  | 0, 1 => rfl
  | 0, _ + 2 => rfl
  | 1, 0 => rfl
  | 1, _ + 1 => rfl
  | _ + 2, _ => rfl

theorem Executes.request (executes : plain.Executes marked) :
    marked.request = plain.request.executing := by
  have verbose : marked.flags.count .verbose = plain.flags.count .verbose :=
    (executes.flags.count_eq _).trans (List.count_cons_of_ne (by decide))
  have values (name : Setting) : marked.values name = plain.values name := by
    rw [Draft.values, Draft.values, executes.settings]
  have value? (name : Setting) : marked.value? name = plain.value? name := by
    rw [Draft.value?, Draft.value?, values]
  have isSound : marked.isSound = plain.isSound := by
    funext name
    rw [Draft.isSound, Draft.isSound, values]
  rw [Draft.request, Draft.request, executes.mode?, executes.input, verbose, isSound]
  simp only [value?]
  cases plain.input with
  | none => rfl
  | some input =>
      generalize [Setting.output, .selection, .tapeSize, .indent, .compiler].all plain.isSound =
        sound
      cases plain.mode? with
      | none => rfl
      | some mode => cases mode <;> cases sound <;> rfl

end Draft

/-- Items are taken in the same way beside the flag of the execute mode. -/
theorem Draft.Executes.takeItems {plain marked : Draft} (executes : plain.Executes marked)
    (items : List Item) :
    takeItems marked items = (takeItems plain items).executing := by
  induction items generalizing plain marked with
  | nil => exact executes.request
  | cons item rest ih =>
      cases item with
      | positional text =>
          simp only [CommandLine.takeItems, executes.input]
          split
          · rfl
          · exact ih ⟨rfl, executes.settings, executes.flags⟩
      | setting name value =>
          exact ih ⟨executes.input, congrArg ((name, value) :: ·) executes.settings, executes.flags⟩
      | flag name =>
          exact ih ⟨executes.input, executes.settings,
            (executes.flags.cons name).trans (.swap _ _ _)⟩
      | version => rfl
      | unknown => rfl

theorem takeItems_insert_execute (draft : Draft) (before after : List Item) :
    takeItems draft (before ++ .flag .execute :: after) =
      (takeItems draft (before ++ after)).executing := by
  induction before generalizing draft with
  | nil =>
      have executes : draft.Executes { draft with flags := .execute :: draft.flags } :=
        ⟨rfl, rfl, .refl _⟩
      exact executes.takeItems after
  | cons item rest ih =>
      cases item with
      | positional text =>
          simp only [List.cons_append, takeItems]
          split
          · rfl
          · exact ih _
      | setting name value => exact ih _
      | flag name => exact ih _
      | version => rfl
      | unknown => rfl

/-! ### One flag more among the arguments -/

/-- The second command line reads as the first with the flag of the execute mode somewhere. -/
def AddsExecute (plain marked : List String) : Prop :=
  ∃ before after, readItems none plain = before ++ after ∧
    readItems none marked = before ++ .flag .execute :: after

variable {plain marked : List String}

/-- The flag of the execute mode asks for the same options in the other mode. -/
theorem AddsExecute.ofArguments_eq (adds : AddsExecute plain marked) :
    Request.ofArguments marked = (Request.ofArguments plain).executing := by
  obtain ⟨before, after, items, items'⟩ := adds
  rw [Request.ofArguments, Request.ofArguments, items, items', takeItems_insert_execute]

/-- The flag may stand in front. -/
theorem addsExecute_cons {flag : String} (isFlag : flag ∈ ["-e", "--execute"])
    (arguments : List String) : AddsExecute arguments (flag :: arguments) := by
  refine ⟨[], _, rfl, ?_⟩
  simp only [List.mem_cons, List.not_mem_nil, or_false] at isFlag
  rcases isFlag with rfl | rfl <;> rfl

/-- The flag may stand behind an argument that is complete in itself. -/
theorem AddsExecute.cons {argument : String} (options : argument ≠ "--")
    (complete : (readArgument argument).waiting = none) (adds : AddsExecute plain marked) :
    AddsExecute (argument :: plain) (argument :: marked) := by
  obtain ⟨before, after, items, items'⟩ := adds
  refine ⟨(readArgument argument).items ++ before, after, ?_, ?_⟩
  · simp only [readItems, withoutValue, if_neg options, complete, items, List.nil_append,
      List.append_assoc]
  · simp only [readItems, withoutValue, if_neg options, complete, items', List.nil_append,
      List.append_assoc]

/-- The flag may stand behind a setting and its value. -/
theorem AddsExecute.cons_value {argument value : String} {setting : Setting}
    (options : argument ≠ "--") (waits : (readArgument argument).waiting = some setting)
    (isValue : isValue value = true) (adds : AddsExecute plain marked) :
    AddsExecute (argument :: value :: plain) (argument :: value :: marked) := by
  obtain ⟨before, after, items, items'⟩ := adds
  refine ⟨(readArgument argument).items ++ .setting setting (some value) :: before, after, ?_, ?_⟩
  · simp only [readItems, withoutValue, if_neg options, waits, isValue, items, List.nil_append,
      List.append_assoc, List.cons_append]
  · simp only [readItems, withoutValue, if_neg options, waits, isValue, items', List.nil_append,
      List.append_assoc, List.cons_append]

end Brainfuck.CommandLine
