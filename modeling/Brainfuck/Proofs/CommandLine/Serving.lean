import Brainfuck.CommandLine.Host
import Brainfuck.CommandLine.Session

/-!
How a host serves a session. `Yields` says what a session comes to on a host and what host it leaves
behind; one session after the other is served in this order (`Yields.bind`, `Yields.bind_error`).
Most stages of a session read, compute and log, and leave nothing behind that lasts. `Computes` says
this of a session together with its result.
-/

namespace Brainfuck.CommandLine

variable {α β : Type} {fuel verbosity : Nat} {host middle after : Host}

/-- Serving one dialogue after the other is serving the first and then, with its value, the
second. -/
theorem Host.serve_bind (fuel : Nat) (first : Dialogue α) (next : α → Dialogue β) (host : Host) :
    Host.serve fuel (first.bind next) host =
      (Host.serve fuel first host).bind fun (value, after) =>
        Host.serve fuel (next value) after := by
  induction first generalizing host with
  | done value => rfl
  | readStdin rest ih => exact ih _ _
  | readFile path rest ih => exact ih _ _
  | writeFile path text rest ih =>
      simp only [Dialogue.bind, Host.serve]
      cases host.files.write path (Source.ofText text) with
      | ok files => exact ih _ _
      | error e => exact ih _ _
  | scratch text rest ih => exact ih _ _
  | launch command arguments rest ih => exact ih _ _
  | execute tape program rest ih =>
      simp only [Dialogue.bind, Host.serve]
      split
      · rfl
      · exact ih _ _ _
  | log record rest ih => exact ih _
  | print text rest ih => exact ih _

namespace Session

/-- Served by a host, a session comes to a result and leaves this host behind. -/
def Yields (session : Session α) (verbosity fuel : Nat) (host : Host) (result : Except Failure α)
    (after : Host) : Prop :=
  Host.serve fuel (session verbosity).run host = some (result, after)

theorem serve_bind (first : Session α) (next : α → Session β) :
    Host.serve fuel ((first >>= next) verbosity).run host =
      (Host.serve fuel (first verbosity).run host).bind fun
        | (.ok value, after) => Host.serve fuel (next value verbosity).run after
        | (.error failure, after) => some (.error failure, after) := by
  refine (Host.serve_bind fuel (first verbosity).run _ host).trans (Option.bind_congr ?_)
  rintro ⟨result, after⟩ -
  cases result <;> rfl

theorem Yields.bind {first : Session α} {next : α → Session β} {value : α}
    {result : Except Failure β} (done : first.Yields verbosity fuel host (.ok value) middle)
    (rest : (next value).Yields verbosity fuel middle result after) :
    (first >>= next).Yields verbosity fuel host result after := by
  rw [Yields] at done
  rw [Yields, serve_bind, done]
  exact rest

theorem Yields.bind_error {first : Session α} (next : α → Session β) {failure : Failure}
    (failed : first.Yields verbosity fuel host (.error failure) after) :
    (first >>= next).Yields verbosity fuel host (.error failure) after := by
  rw [Yields] at failed
  rw [Yields, serve_bind, failed]
  rfl

/-! ### Sessions that leave nothing behind -/

end Session

/-- Nothing has changed on a host but its log and the unread part of its standard input. -/
structure Host.Untouched (before after : Host) : Prop where
  files : after.files = before.files
  commands : after.commands = before.commands
  temporary : after.temporary = before.temporary
  stdout : after.stdout = before.stdout
  launched : after.launched = before.launched

theorem Host.Untouched.refl (host : Host) : Untouched host host :=
  ⟨rfl, rfl, rfl, rfl, rfl⟩

theorem Host.Untouched.trans (first : Untouched host middle) (second : Untouched middle after) :
    Untouched host after :=
  ⟨second.files.trans first.files, second.commands.trans first.commands,
    second.temporary.trans first.temporary, second.stdout.trans first.stdout,
    second.launched.trans first.launched⟩

namespace Session

/-- Served by a host, a session comes to a result and leaves the host untouched. -/
def Computes (session : Session α) (verbosity fuel : Nat) (host : Host)
    (result : Except Failure α) : Prop :=
  ∃ after, session.Yields verbosity fuel host result after ∧ host.Untouched after

theorem Computes.bind {first : Session α} {next : α → Session β} {result : Except Failure α}
    {step : α → Except Failure β} (done : first.Computes verbosity fuel host result)
    (rest : ∀ value after, host.Untouched after →
      (next value).Computes verbosity fuel after (step value)) :
    (first >>= next).Computes verbosity fuel host (result >>= step) := by
  obtain ⟨middle, yields, untouched⟩ := done
  cases result with
  | error failure => exact ⟨middle, yields.bind_error next, untouched⟩
  | ok value =>
      obtain ⟨after, yields', untouched'⟩ := rest value middle untouched
      exact ⟨after, yields.bind yields', untouched.trans untouched'⟩

theorem yields_orFail (result : Except Failure α) :
    (orFail result).Yields verbosity fuel host result host := by
  cases result <;> rfl

theorem computes_orFail (result : Except Failure α) :
    (orFail result).Computes verbosity fuel host result :=
  ⟨host, yields_orFail result, .refl host⟩

/-- Saying something changes the log at most. -/
theorem exists_yields_say (verbosity fuel : Nat) (host : Host) (level : Level) (topic : Topic)
    (message : String) :
    ∃ log, (say level topic message).Yields verbosity fuel host (.ok ()) { host with log } := by
  have unfolded : say level topic message verbosity =
      (if level.isShown verbosity then ask (.log ⟨level, topic, message⟩ (.done ()))
        else pure ()) verbosity := rfl
  by_cases shown : level.isShown verbosity
  · refine ⟨host.log.push ⟨level, topic, message⟩, ?_⟩
    rw [Yields, unfolded, if_pos shown]
    rfl
  · refine ⟨host.log, ?_⟩
    rw [Yields, unfolded, if_neg shown]
    rfl

theorem computes_say (level : Level) (topic : Topic) (message : String) :
    (say level topic message).Computes verbosity fuel host (.ok ()) := by
  obtain ⟨log, said⟩ := exists_yields_say verbosity fuel host level topic message
  exact ⟨_, said, ⟨rfl, rfl, rfl, rfl, rfl⟩⟩

/-- What follows a session that succeeds decides what both of them compute. -/
theorem Computes.followed {first : Session α} {next : α → Session β} {value : α}
    {result : Except Failure β} (done : first.Computes verbosity fuel host (.ok value))
    (rest : ∀ after, host.Untouched after → (next value).Computes verbosity fuel after result) :
    (first >>= next).Computes verbosity fuel host result := by
  obtain ⟨middle, yields, untouched⟩ := done
  obtain ⟨after, yields', untouched'⟩ := rest middle untouched
  exact ⟨after, yields.bind yields', untouched.trans untouched'⟩

theorem computes_forM {items : List α} {action : α → Session Unit}
    (each : ∀ item host, (action item).Computes verbosity fuel host (.ok ())) :
    (items.forM action).Computes verbosity fuel host (.ok ()) := by
  induction items generalizing host with
  | nil => exact ⟨host, rfl, .refl host⟩
  | cons item rest ih => exact (each item host).followed fun after _ => ih

/-! ### The result of a session that computes something -/

/-- A session comes to one result. -/
theorem Computes.unique {session : Session α} {computed result : Except Failure α}
    (computes : session.Computes verbosity fuel host computed)
    (yields : session.Yields verbosity fuel host result after) : result = computed := by
  obtain ⟨after', yields', -⟩ := computes
  cases yields.symm.trans yields'
  rfl

/-- A session that computes a value leaves the result to what follows. -/
theorem Computes.exists_rest {first : Session α} {next : α → Session β} {value : α}
    {result : Except Failure β}
    (computes : first.Computes verbosity fuel host (.ok value))
    (whole : (first >>= next).Yields verbosity fuel host result after) :
    ∃ middle, (next value).Yields verbosity fuel middle result after := by
  obtain ⟨middle, yields, -⟩ := computes
  rw [Yields] at yields
  rw [Yields, serve_bind, yields] at whole
  exact ⟨middle, whole⟩

/-- Two sessions in a row have the result of the first, and then of the second. -/
theorem Computes.result_eq {first : Session α} {next : α → Session β}
    {computed : Except Failure α} {result : Except Failure β} {step : α → Except Failure β}
    (computes : first.Computes verbosity fuel host computed)
    (whole : (first >>= next).Yields verbosity fuel host result after)
    (rest : ∀ value middle, (next value).Yields verbosity fuel middle result after →
      result = step value) :
    result = computed >>= step := by
  cases computed with
  | error failure =>
      obtain ⟨middle, yields, -⟩ := computes
      cases whole.symm.trans (yields.bind_error next)
      rfl
  | ok value =>
      obtain ⟨middle, yields⟩ := computes.exists_rest whole
      exact rest value middle yields

/-! ### Requests -/

theorem yields_ask {request : Dialogue α} {value : α}
    (served : Host.serve fuel request host = some (value, after)) :
    (ask request).Yields verbosity fuel host (.ok value) after := by
  have lifted := Host.serve_bind fuel request
    (fun value => .done (.ok value : Except Failure α)) host
  rw [served] at lifted
  exact lifted

theorem computes_readFile (path : String) :
    (ask (.readFile path .done)).Computes verbosity fuel host
      (.ok ((host.files.read path).mapError .system)) :=
  ⟨host, rfl, .refl host⟩

theorem yields_writeFile {path text : String} {files : FileSystem}
    (written : host.files.write path (Source.ofText text) = .ok files) :
    (ask (.writeFile path text .done)).Yields verbosity fuel host (.ok (.ok ()))
      { host with files } :=
  yields_ask (by rw [Host.serve, written]; rfl)

theorem computes_writeFile {path text : String} {e : SystemError}
    (refused : host.files.write path (Source.ofText text) = .error e) :
    (ask (.writeFile path text .done)).Computes verbosity fuel host
      (.ok (.error (.system e))) :=
  ⟨host, yields_ask (by rw [Host.serve, refused]; rfl), .refl host⟩

theorem yields_printLine (line : String) :
    (printLine line).Yields verbosity fuel host (.ok ())
      { host with stdout := host.stdout ++ (Source.ofText (line ++ "\n")).toArray } :=
  rfl

end Session

/-! ### The whole command line -/

/-- How the command line ends on a host that a session has left behind. A failure is logged. -/
def Host.conclude (after : Host) : Except Failure Unit → Ending × Host
  | .ok () => (.success, after)
  | .error failure =>
      (.failure, { after with log := after.log.push ⟨.error, .program, failure.message⟩ })

theorem Host.files_conclude (after : Host) (result : Except Failure Unit) :
    (after.conclude result).2.files = after.files := by
  cases result <;> rfl

theorem Host.launched_conclude (after : Host) (result : Except Failure Unit) :
    (after.conclude result).2.launched = after.launched := by
  cases result <;> rfl

theorem serve_answer {arguments : List String} {options : Options}
    (started : Request.ofArguments arguments = .start options) :
    Host.serve fuel (answer arguments) host =
      (Host.serve fuel (Session.perform options options.verbosity).run host).map
        fun (result, after) => after.conclude result := by
  rw [answer, started]
  refine (Host.serve_bind fuel _ _ host).trans ?_
  rw [Option.map_eq_bind]
  refine Option.bind_congr ?_
  rintro ⟨result, after⟩ -
  cases result <;> rfl

end Brainfuck.CommandLine
