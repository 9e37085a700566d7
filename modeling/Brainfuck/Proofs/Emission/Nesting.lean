import Brainfuck.Proofs.Emission.Listing
import Brainfuck.Proofs.Loops.Culprit

/-!
Calls on a listing, in any order. A call writes its line and changes nothing that stands there
already, or it is the end of a loop where none is open, and then it changes nothing at all
(`effect_perform`). The calls that succeed scan as brackets without a stray end
(`scan_successes`), so the open loops are those of a program, and closing the listing reports the
last one of them (`calls_nest`).
-/

namespace Brainfuck.Emission.Listing

/-! ### One call -/

/-- What can be asked of a listing. -/
inductive Call where
  | write (statement : String)
  | enterLoop (span : Span)
  | leaveLoop (span : Span)
  | append (instruction : Instruction)
deriving DecidableEq, Repr

namespace Call

/-- The listing after a call that succeeds. -/
def run : Call → Listing → Except Error Listing
  | .write statement, listing => .ok (listing.write statement)
  | .enterLoop span, listing => .ok (listing.enterLoop span)
  | .leaveLoop span, listing => listing.leaveLoop span
  | .append instruction, listing => listing.append instruction

/-- The bracket that a call stands for, if it starts or ends a loop. -/
def bracket? : Call → Option Instruction
  | .enterLoop span | .append (.loopStart span) => some (.loopStart span)
  | .leaveLoop span | .append (.loopEnd span) => some (.loopEnd span)
  | _ => none

/-- The statement that a call writes. -/
def statement : Call → String
  | .write statement => statement
  | .enterLoop span => lineText (.loopStart span)
  | .leaveLoop span => lineText (.loopEnd span)
  | .append instruction => lineText instruction

/-- The depth of a call's line: that after the call when it ends a loop, and that before it
otherwise. -/
def lineDepth (call : Call) (before after : Listing) : Nat :=
  match call.bracket? with
  | some (.loopEnd _) => after.depth
  | _ => before.depth

/-- A call enters a loop, leaves one, or only writes. -/
theorem run_cases (call : Call) (listing : Listing) :
    (∃ span, call.bracket? = some (.loopStart span) ∧
      call.statement = "while (tape.read() != 0) \x7b" ∧
      call.run listing = .ok (listing.enterLoop span)) ∨
    (∃ span, call.bracket? = some (.loopEnd span) ∧ call.statement = "\x7d" ∧
      call.run listing = listing.leaveLoop span) ∨
    (call.bracket? = none ∧ call.run listing = .ok (listing.write call.statement)) := by
  cases call with
  | write statement => exact .inr (.inr ⟨rfl, rfl⟩)
  | enterLoop span => exact .inl ⟨span, rfl, rfl, rfl⟩
  | leaveLoop span => exact .inr (.inl ⟨span, rfl, rfl, rfl⟩)
  | append instruction =>
      cases instruction with
      | loopStart span => exact .inl ⟨span, rfl, rfl, rfl⟩
      | loopEnd span => exact .inr (.inl ⟨span, rfl, rfl, rfl⟩)
      | _ => exact .inr (.inr ⟨rfl, rfl⟩)

end Call

/-- What a call answers, and the listing after it. A call that fails leaves the listing as it
was. -/
def perform (listing : Listing) (call : Call) : Except Error Unit × Listing :=
  match call.run listing with
  | .ok next => (.ok (), next)
  | .error e => (.error e, listing)

/-- One call on a listing, by what it answers and by the listing after it. It fails only as the end
of a loop at depth zero, for its own place, and leaves the same listing. Otherwise it puts one line
behind the others. -/
inductive Effect (width : Nat) (listing : Listing) (call : Call) :
    Except Error Unit × Listing → Prop where
  | refused {span} (ends : call.bracket? = some (.loopEnd span)) (outermost : listing.depth = 0) :
      Effect width listing call (.error (.unbalancedLoop span), listing)
  | written {next} (inside : ∀ span, call.bracket? = some (.loopEnd span) → listing.depth ≠ 0)
      (line : next.lines.toList = listing.lines.toList ++
        [indented (width * (call.lineDepth listing next + 1)) call.statement]) :
      Effect width listing call (.ok (), next)

variable {listing next : Listing} {call : Call}

theorem perform_of_ok (done : call.run listing = .ok next) :
    listing.perform call = (.ok (), next) := by
  rw [perform, done]

theorem perform_of_error {e : Error} (failed : call.run listing = .error e) :
    listing.perform call = (.error e, listing) := by
  rw [perform, failed]

theorem toList_lines_write (listing : Listing) (statement : String) :
    (listing.write statement).lines.toList = listing.lines.toList ++
      [indented (listing.indentWidth * (listing.depth + 1)) statement] :=
  Array.toList_push

theorem effect_perform (listing : Listing) (call : Call) :
    Effect listing.indentWidth listing call (listing.perform call) := by
  rcases call.run_cases listing with
    ⟨span, bracket, statement, run⟩ | ⟨span, bracket, statement, run⟩ | ⟨bracket, run⟩
  · rw [perform_of_ok run]
    refine .written (fun _ ends => ?_) ?_
    · rw [bracket] at ends
      cases ends
    · rw [Call.lineDepth, bracket, statement]
      exact toList_lines_write listing _
  · -- The end of a loop pops before it writes, so its line stands at the depth of the outer loops.
    obtain ⟨indentWidth, _ | ⟨innermost, outer⟩, lines⟩ := listing
    · rw [perform_of_error run]
      exact .refused bracket rfl
    · rw [perform_of_ok run]
      refine .written (fun _ _ => Nat.succ_ne_zero _) ?_
      rw [Call.lineDepth, bracket, statement]
      exact toList_lines_write ⟨indentWidth, outer, lines⟩ _
  · rw [perform_of_ok run]
    refine .written (fun _ ends => ?_) ?_
    · rw [bracket] at ends
      cases ends
    · rw [Call.lineDepth, bracket]
      exact toList_lines_write listing _

theorem indentWidth_perform (listing : Listing) (call : Call) :
    (listing.perform call).2.indentWidth = listing.indentWidth := by
  rcases call.run_cases listing with ⟨span, -, -, run⟩ | ⟨span, -, -, run⟩ | ⟨-, run⟩
  · rw [perform_of_ok run]
    rfl
  · obtain ⟨indentWidth, _ | ⟨innermost, outer⟩, lines⟩ := listing
    · rw [perform_of_error run]
    · rw [perform_of_ok run]
      rfl
  · rw [perform_of_ok run]
    rfl

/-- A call that succeeds changes the open loops as a scan of its bracket does. -/
theorem openStep_of_run (done : call.run listing = .ok next) :
    call.bracket?.toList.foldlM Loops.openStep listing.openLoops = .ok next.openLoops := by
  rcases call.run_cases listing with
    ⟨span, bracket, -, run⟩ | ⟨span, bracket, -, run⟩ | ⟨bracket, run⟩ <;> rw [run] at done
  · cases done
    rw [bracket]
    rfl
  · obtain ⟨indentWidth, _ | ⟨innermost, outer⟩, lines⟩ := listing
    · cases done
    · cases done
      rw [bracket]
      rfl
  · cases done
    rw [bracket]
    rfl

/-! ### Calls in a row -/

/-- Some calls one after another: what they answer, and the listing after the last one. -/
def performAll (listing : Listing) : List Call → List (Except Error Unit) × Listing
  | [] => ([], listing)
  | call :: rest =>
      let first := listing.perform call
      let others := first.2.performAll rest
      (first.1 :: others.1, others.2)

/-- Those of some calls that succeed, when they are made one after another. -/
def successes (listing : Listing) : List Call → List Call
  | [] => []
  | call :: rest =>
      match listing.perform call with
      | (.ok (), next) => call :: next.successes rest
      | (.error _, next) => next.successes rest

theorem performAll_append (listing : Listing) (first second : List Call) :
    listing.performAll (first ++ second) =
      ((listing.performAll first).1 ++ ((listing.performAll first).2.performAll second).1,
        ((listing.performAll first).2.performAll second).2) := by
  induction first generalizing listing with
  | nil => rfl
  | cons call rest ih => simp only [List.cons_append, performAll, ih]

theorem length_performAll (listing : Listing) (calls : List Call) :
    (listing.performAll calls).1.length = calls.length := by
  induction calls generalizing listing with
  | nil => rfl
  | cons call rest ih => exact congrArg Nat.succ (ih _)

theorem indentWidth_performAll (listing : Listing) (calls : List Call) :
    (listing.performAll calls).2.indentWidth = listing.indentWidth := by
  induction calls generalizing listing with
  | nil => rfl
  | cons call rest ih => exact (ih _).trans (indentWidth_perform listing call)

/-- The brackets of the calls that succeed have no stray end among them, and leave open what the
listing holds as open. -/
theorem scan_successes (listing : Listing) (calls : List Call) :
    ((listing.successes calls).filterMap Call.bracket?).foldlM Loops.openStep listing.openLoops =
      .ok (listing.performAll calls).2.openLoops := by
  induction calls generalizing listing with
  | nil => rfl
  | cons call rest ih =>
      -- A call that fails drops out on both sides, and one that succeeds scans its bracket first.
      cases run : call.run listing with
      | error e =>
          have performed := perform_of_error run
          simp only [successes, performAll, performed]
          exact ih listing
      | ok next =>
          have performed := perform_of_ok run
          have split (calls : List Call) : (call :: calls).filterMap Call.bracket? =
              call.bracket?.toList ++ calls.filterMap Call.bracket? := by
            rw [List.filterMap_cons]
            cases call.bracket? <;> rfl
          simp only [successes, performAll, performed]
          rw [split, foldlM_append_of_ok _ (openStep_of_run run)]
          exact ih next

/-- A call that fails may as well not be made: the others answer the same, and the listing after all
of them is the same. -/
theorem performAll_of_failed {listing : Listing} {calls : List Call} {call : Call} {e : Error}
    (failed : ((listing.performAll calls).2.perform call).1 = .error e) (later : List Call) :
    (listing.performAll (calls ++ call :: later)).1.eraseIdx calls.length =
        (listing.performAll (calls ++ later)).1 ∧
      (listing.performAll (calls ++ call :: later)).2 =
        (listing.performAll (calls ++ later)).2 := by
  have length := length_performAll listing calls
  rw [performAll_append, performAll_append]
  generalize (listing.performAll calls).2 = middle at failed
  generalize (listing.performAll calls).1 = answers at length
  cases run : call.run middle with
  | ok next =>
      rw [perform_of_ok run] at failed
      cases failed
  | error e' =>
      have performed := perform_of_error run
      simp only [performAll, performed]
      refine ⟨?_, trivial⟩
      rw [List.eraseIdx_append_of_length_le (Nat.le_of_eq length), length, Nat.sub_self]
      rfl

/-- Any calls on a new listing. The depth is the number of loop starts among the calls that succeed
less that of loop ends. The next call has the effect of a call, and if it fails, all calls behind it
go as if it had not been made. Closing the listing gives all lines when the depth is zero; otherwise
it names the last loop start, among the calls that succeed, that is still open. -/
theorem calls_nest (width : Nat) (calls : List Call) :
    let start : Listing := { indentWidth := width }
    let listing := (start.performAll calls).2
    let brackets := (start.successes calls).filterMap Call.bracket?
    (listing.depth : Int) = Loops.starts brackets - Loops.stops brackets ∧
    (∀ call, Effect width listing call (listing.perform call)) ∧
    (∀ call e later, (listing.perform call).1 = .error e →
      (start.performAll (calls ++ call :: later)).1.eraseIdx calls.length =
          (start.performAll (calls ++ later)).1 ∧
        (start.performAll (calls ++ call :: later)).2 = (start.performAll (calls ++ later)).2) ∧
    (listing.depth = 0 → listing.close = .ok listing.lines) ∧
    (listing.depth ≠ 0 → ∃ span i, brackets[i]? = some (.loopStart span) ∧
      Loops.Unclosed brackets i ∧ (∀ k > i, ¬ Loops.Unclosed brackets k) ∧
      listing.close = .error (.unbalancedLoop span)) := by
  intro start listing brackets
  have leaves : Loops.Leaves brackets listing.openLoops :=
    Loops.leaves_of_scan (scan_successes start calls)
  have width_eq : listing.indentWidth = width := indentWidth_performAll start calls
  refine ⟨?_, ?_, fun call e later failed => performAll_of_failed failed later, ?_, ?_⟩
  · have counted := leaves.starts_eq
    rw [depth]
    omega
  · intro call
    rw [← width_eq]
    exact effect_perform listing call
  · intro outermost
    rw [close, List.eq_nil_of_length_eq_zero outermost]
  · intro inside
    cases opened : listing.openLoops with
    | nil => exact absurd (congrArg List.length opened) inside
    | cons span outer =>
        rw [opened] at leaves
        obtain ⟨i, here, never, last⟩ := leaves.exists_last_unclosed
        refine ⟨span, i, here, never, last, ?_⟩
        rw [close, opened]

/-- The theorem for a stray loop end between one loop that is closed and two of which one is. -/
theorem calls_nest_stray_end :
    let start : Listing := { indentWidth := 2 }
    let calls : List Call := [.enterLoop ⟨0, 0⟩, .leaveLoop ⟨1, 1⟩]
    let stray : Call := .append (.loopEnd ⟨2, 2⟩)
    let later : List Call := [.append (.loopStart ⟨3, 3⟩), .enterLoop ⟨4, 4⟩,
      .write "tape.input();", .leaveLoop ⟨5, 5⟩]
    let listing := (start.performAll (calls ++ stray :: later)).2
    let brackets := (start.successes (calls ++ stray :: later)).filterMap Call.bracket?
    ((start.performAll calls).2.depth = 0 ∧
        ((start.performAll calls).2.perform stray).1 = .error (.unbalancedLoop ⟨2, 2⟩) ∧
        listing.depth ≠ 0) ∧
      (start.performAll calls).2.close = .ok (start.performAll calls).2.lines ∧
      listing = (start.performAll (calls ++ later)).2 ∧
      listing.close = .error (.unbalancedLoop ⟨3, 3⟩) ∧
      ∃ i, brackets[i]? = some (.loopStart ⟨3, 3⟩) ∧ Loops.Unclosed brackets i ∧
        ∀ k > i, ¬ Loops.Unclosed brackets k := by
  intro start calls stray later listing brackets
  have outermost : (start.performAll calls).2.depth = 0 := rfl
  have failed : ((start.performAll calls).2.perform stray).1 =
    .error (.unbalancedLoop ⟨2, 2⟩) := rfl
  have inside : listing.depth ≠ 0 := Nat.one_ne_zero
  obtain ⟨-, -, forgotten, whole, -⟩ := calls_nest 2 calls
  obtain ⟨-, -, -, -, reported⟩ := calls_nest 2 (calls ++ stray :: later)
  obtain ⟨span, i, here, never, last, named⟩ := reported inside
  obtain rfl : ⟨3, 3⟩ = span := by
    cases named
    rfl
  exact ⟨⟨outermost, failed, inside⟩, whole outermost, (forgotten stray _ later failed).2, named, i,
    here, never, last⟩

end Brainfuck.Emission.Listing
