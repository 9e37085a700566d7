import Brainfuck.Proofs.CommandLine.Serving

/-!
Dialogues that ask a host for nothing that would last. `IsReadOnly` is a property of the tree of
requests, so it does not depend on how a host answers or on whether an executed program ends. A host
that answers such a dialogue has the same files afterwards (`files_of_serve`), and a session that
executes a program is read-only as a whole (`isReadOnly_execute`).
-/

namespace Brainfuck.CommandLine

variable {α β : Type}

/-- Whatever the answers are, a dialogue never asks for a file to be written or for a command to be
started. -/
def Dialogue.IsReadOnly : Dialogue α → Prop
  | .done _ => True
  | .readStdin next => ∀ bytes, (next bytes).IsReadOnly
  | .readFile _ next => ∀ result, (next result).IsReadOnly
  | .writeFile .. | .scratch .. | .launch .. => False
  | .execute _ _ next => ∀ result tape, (next result tape).IsReadOnly
  | .log _ next | .print _ next => next.IsReadOnly

theorem Dialogue.IsReadOnly.bind {first : Dialogue α} {next : α → Dialogue β}
    (readOnly : first.IsReadOnly) (rest : ∀ value, (next value).IsReadOnly) :
    (first.bind next).IsReadOnly := by
  induction first with
  | done value => exact rest value
  | readStdin _ ih => exact fun bytes => ih bytes (readOnly bytes)
  | readFile _ _ ih => exact fun result => ih result (readOnly result)
  | writeFile | scratch | launch => exact readOnly.elim
  | execute _ _ _ ih => exact fun result tape => ih result tape (readOnly result tape)
  | log _ _ ih => exact ih readOnly
  | print _ _ ih => exact ih readOnly

/-- A host that has answered a read-only dialogue has the same files as before. -/
theorem Dialogue.IsReadOnly.files_of_serve {dialogue : Dialogue α} {fuel : Nat} {host after : Host}
    {value : α} (readOnly : dialogue.IsReadOnly)
    (served : Host.serve fuel dialogue host = some (value, after)) : after.files = host.files := by
  induction dialogue generalizing host with
  | done => cases served; rfl
  | readStdin _ ih => exact (ih _ (readOnly _) served :)
  | readFile _ _ ih => exact (ih _ (readOnly _) served :)
  | writeFile | scratch | launch => exact readOnly.elim
  | execute tape program next ih =>
      rw [Host.serve] at served
      split at served
      · cases served
      · exact (ih _ _ (readOnly _ _) served :)
  | log _ _ ih => exact (ih readOnly served :)
  | print _ _ ih => exact (ih readOnly served :)

namespace Session

/-- A session is read-only if its dialogue is, however much is to be logged. -/
def IsReadOnly (session : Session α) : Prop :=
  ∀ verbosity, (session verbosity).run.IsReadOnly

theorem IsReadOnly.bind {first : Session α} {next : α → Session β} (readOnly : first.IsReadOnly)
    (rest : ∀ value, (next value).IsReadOnly) : (first >>= next).IsReadOnly := by
  refine fun verbosity => (readOnly verbosity).bind fun result => ?_
  cases result with
  | ok value => exact rest value verbosity
  | error failure => exact trivial

theorem isReadOnly_ask {request : Dialogue α} (readOnly : request.IsReadOnly) :
    (ask request).IsReadOnly :=
  fun _ => readOnly.bind fun _ => trivial

theorem isReadOnly_orFail (result : Except Failure α) : (orFail result).IsReadOnly := by
  cases result <;> exact fun _ => trivial

theorem isReadOnly_say (level : Level) (topic : Topic) (message : String) :
    (say level topic message).IsReadOnly := by
  refine IsReadOnly.bind (fun _ => trivial) fun verbosity => ?_
  split
  · exact isReadOnly_ask trivial
  · exact fun _ => trivial

theorem isReadOnly_forM {items : List α} {action : α → Session Unit}
    (each : ∀ item, (action item).IsReadOnly) : (items.forM action).IsReadOnly := by
  induction items with
  | nil => exact fun _ => trivial
  | cons item rest ih => exact (each item).bind fun _ => ih

theorem isReadOnly_sourceBytes (input : String) : (sourceBytes input).IsReadOnly := by
  unfold sourceBytes
  split
  · have asked : (ask (.readStdin .done)).IsReadOnly := isReadOnly_ask fun _ => trivial
    exact (isReadOnly_say _ _ _).bind fun _ => asked
  · have asked : (ask (.readFile input .done)).IsReadOnly := isReadOnly_ask fun _ => trivial
    exact (isReadOnly_say _ _ _).bind fun _ => asked.bind fun _ => isReadOnly_orFail _

theorem isReadOnly_shorten (selection : String) (program : List Instruction) :
    (shorten selection program).IsReadOnly :=
  (isReadOnly_orFail _).bind fun _ =>
    (isReadOnly_forM fun _ => isReadOnly_say _ _ _).bind fun _ => isReadOnly_orFail _

theorem isReadOnly_size (option value : String) : (size option value).IsReadOnly := by
  unfold size
  split <;> exact fun _ => trivial

/-- Executing a program asks for nothing that would last. -/
theorem isReadOnly_execute (options : Options) : (execute options).IsReadOnly := by
  refine (isReadOnly_sourceBytes _).bind fun _ => ?_
  refine (isReadOnly_shorten _ _).bind fun program => ?_
  refine (isReadOnly_size _ _).bind fun _ => ?_
  refine (isReadOnly_orFail _).bind fun tape => ?_
  refine (isReadOnly_say _ _ _).bind fun _ => ?_
  have asked : (ask (.execute tape program fun result tape => .done (result, tape))).IsReadOnly :=
    isReadOnly_ask fun _ _ => trivial
  refine asked.bind fun _ => ?_
  refine (isReadOnly_forM fun _ => isReadOnly_say _ _ _).bind fun _ => ?_
  exact (isReadOnly_orFail _).bind fun _ => isReadOnly_say _ _ _

end Session

/-- The whole command line is read-only when it is to execute a program. -/
theorem isReadOnly_answer {arguments : List String} {options : Options}
    (started : Request.ofArguments arguments = .start options) (mode : options.mode = .execute) :
    (answer arguments).IsReadOnly := by
  rw [answer, started]
  refine Dialogue.IsReadOnly.bind ?_ fun result => ?_
  · simp only [Session.perform, mode]
    exact Session.isReadOnly_execute options options.verbosity
  · cases result <;> exact trivial

end Brainfuck.CommandLine
