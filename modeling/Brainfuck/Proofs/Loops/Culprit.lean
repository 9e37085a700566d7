import Brainfuck.Proofs.LoopTree
import Mathlib.Data.List.Induction
import Mathlib.Data.Nat.Find

/-!
The bracket that a program is refused for. Two brackets are partners when what stands between them
matches; a loop start is open until its partner, and a loop end before which nothing is open is
stray. The culprit of a program is its first stray loop end or, without one, its last loop start
that is never closed. A scan finds exactly this bracket (`check_eq_error_iff`), since the loops that
it leaves open are the open ones, with matching programs between them (`Leaves`).
-/

namespace Brainfuck.Loops

/-! ### Partners -/

/-- The instructions strictly between two indices. -/
def between (program : List Instruction) (i j : Nat) : List Instruction :=
  (program.take j).drop (i + 1)

/-- A loop start at `i` and a loop end at `j` with a matching program between them. -/
structure Partners (program : List Instruction) (i j : Nat) : Prop where
  before : i < j
  start : ∃ span, program[i]? = some (.loopStart span)
  stop : ∃ span, program[j]? = some (.loopEnd span)
  inside : Balanced (between program i j)

/-- The loop start at `i` has no partner before `j`. -/
structure OpenAt (program : List Instruction) (i j : Nat) : Prop where
  before : i < j
  start : ∃ span, program[i]? = some (.loopStart span)
  alone : ∀ k < j, ¬ Partners program i k

/-- The loop end at `j` has no open loop start before it. -/
structure Stray (program : List Instruction) (j : Nat) : Prop where
  stop : ∃ span, program[j]? = some (.loopEnd span)
  alone : ∀ i, ¬ OpenAt program i j

/-- The loop start at `i` is never closed. -/
def Unclosed (program : List Instruction) (i : Nat) : Prop :=
  OpenAt program i program.length

/-- The bracket that makes a program unbalanced: the first stray loop end or, when there is none,
the last loop start that is never closed. -/
inductive Culprit (program : List Instruction) : Span → Prop where
  | stray {j span} (here : program[j]? = some (.loopEnd span)) (alone : Stray program j)
      (first : ∀ k < j, ¬ Stray program k) : Culprit program span
  | unclosed {i span} (noStray : ∀ j, ¬ Stray program j)
      (here : program[i]? = some (.loopStart span)) (never : Unclosed program i)
      (last : ∀ k > i, ¬ Unclosed program k) : Culprit program span

/-- A program has at most one culprit. -/
theorem culprit_unique {program : List Instruction} {s t : Span} (first : Culprit program s)
    (second : Culprit program t) : s = t := by
  cases first with
  | @stray j _ here alone least =>
      cases second with
      | @stray j' _ here' alone' least' =>
          have same : j = j' := by
            rcases Nat.lt_trichotomy j j' with before | same | behind
            · exact absurd alone (least' j before)
            · exact same
            · exact absurd alone' (least j' behind)
          subst same
          rw [here] at here'
          cases here'
          rfl
      | unclosed noStray => exact absurd alone (noStray j)
  | @unclosed i _ noStray here never greatest =>
      cases second with
      | @stray j' _ _ alone' => exact absurd alone' (noStray j')
      | @unclosed i' _ _ here' never' greatest' =>
          have same : i = i' := by
            rcases Nat.lt_trichotomy i i' with before | same | behind
            · exact absurd never' (greatest i' before)
            · exact same
            · exact absurd never (greatest' i behind)
          subst same
          rw [here] at here'
          cases here'
          rfl

/-! ### Open loop starts by counting -/

theorem between_split (before : List Instruction) (instruction : Instruction)
    (rest : List Instruction) (n : Nat) :
    between (before ++ instruction :: rest) before.length (before.length + 1 + n) =
      rest.take n := by
  rw [between, Nat.add_assoc, List.take_length_add_append, Nat.add_comm 1 n, List.take_succ_cons,
    List.drop_append]
  simp

theorem eq_loopEnd_of_lt {i : Instruction} (more : starts [i] < stops [i]) :
    ∃ span, i = .loopEnd span := by
  cases i with
  | loopEnd span => exact ⟨span, rfl⟩
  | _ => exact absurd more (Nat.not_lt_zero _)

/-- Where more loops end than start, the first end that is one too many has a matching program
before it. -/
theorem exists_balanced_take {program : List Instruction} {n : Nat}
    (more : starts (program.take n) < stops (program.take n)) :
    ∃ k < n, Balanced (program.take k) ∧ ∃ span, program[k]? = some (.loopEnd span) := by
  -- The shortest beginning with more ends than starts ends in the one that is too many.
  have found : ∃ n, starts (program.take n) < stops (program.take n) := ⟨n, more⟩
  have least (m : Nat) (lt : m < Nat.find found) :
      stops (program.take m) ≤ starts (program.take m) :=
    Nat.not_lt.mp (Nat.find_min found lt)
  have excess := Nat.find_spec found
  have le := Nat.find_min' found more
  generalize Nat.find found = first at excess le least
  cases first with
  | zero => simp at excess
  | succ k =>
      have before := least k (Nat.lt_succ_self k)
      rw [List.take_add_one, starts_append, stops_append] at excess
      have one : ∃ span, program[k]? = some (.loopEnd span) := by
        cases here : program[k]? with
        | none =>
            rw [here] at excess
            exact absurd excess (Nat.not_lt.mpr before)
        | some instruction =>
            rw [here, Option.toList_some] at excess
            obtain ⟨span, rfl⟩ := eq_loopEnd_of_lt (i := instruction) (by omega)
            exact ⟨span, rfl⟩
      obtain ⟨span, here⟩ := one
      rw [here, Option.toList_some, starts_loopEnd, stops_loopEnd, starts_nil, stops_nil] at excess
      refine ⟨k, le, ⟨fun m => ?_, by omega⟩, span, here⟩
      rw [List.take_take]
      exact least _ (Nat.lt_succ_of_le (Nat.min_le_right m k))

/-- A loop start is open as long as the instructions behind it never end more loops than they
start. -/
theorem openAt_split_iff (before : List Instruction) (span : Span) (rest : List Instruction)
    (n : Nat) :
    OpenAt (before ++ .loopStart span :: rest) before.length (before.length + 1 + n) ↔
      ∀ m ≤ n, stops (rest.take m) ≤ starts (rest.take m) := by
  have start : (before ++ .loopStart span :: rest)[before.length]? = some (.loopStart span) := by
    simp
  have behind (k : Nat) :
      (before ++ .loopStart span :: rest)[before.length + 1 + k]? = rest[k]? := by
    rw [Nat.add_assoc, List.getElem?_append_right (Nat.le_add_right ..), Nat.add_sub_cancel_left,
      Nat.add_comm 1 k, List.getElem?_cons_succ]
  constructor
  · -- The first end that is one too many behind the start would be its partner.
    intro isOpen m le
    by_contra more
    obtain ⟨k, lt, inside, stop⟩ := exists_balanced_take (Nat.not_le.mp more)
    refine isOpen.alone (before.length + 1 + k) (by omega) ⟨by omega, ⟨span, start⟩, ?_, ?_⟩
    · rw [behind]
      exact stop
    · rw [between_split]
      exact inside
  · -- A partner would be an end too many, since what is between the two is balanced.
    intro fewer
    refine ⟨by omega, ⟨span, start⟩, ?_⟩
    rintro k lt ⟨after, -, stop, inside⟩
    obtain ⟨k, rfl⟩ := Nat.exists_eq_add_of_le (Nat.succ_le_of_lt after)
    rw [behind] at stop
    rw [between_split] at inside
    obtain ⟨span, stop⟩ := stop
    have bound := fewer (k + 1) (by omega)
    have total := inside.total
    rw [List.take_add_one, stop, Option.toList_some, starts_append, stops_append, starts_loopEnd,
      stops_loopEnd, starts_nil, stops_nil] at bound
    omega

/-- Nothing that starts within a matching part of a program is open behind that part. -/
theorem not_openAt_of_balanced (front back : List Instruction) {inner : List Instruction}
    (balanced : Balanced inner) {i j : Nat} (inside : front.length ≤ i)
    (before : i < front.length + inner.length) (behind : front.length + inner.length ≤ j) :
    ¬ OpenAt (front ++ (inner ++ back)) i j := by
  intro isOpen
  obtain ⟨k, rfl⟩ := Nat.exists_eq_add_of_le inside
  obtain ⟨span, start⟩ := isOpen.start
  rw [List.getElem?_append_right (Nat.le_add_right ..), Nat.add_sub_cancel_left,
    List.getElem?_append_left (by omega)] at start
  obtain ⟨first, last, rfl, rfl⟩ := split_of_getElem? start
  simp only [List.length_append, List.length_cons] at before behind
  obtain ⟨n, rfl⟩ : ∃ n, j = (front ++ first).length + 1 + n := by
    refine ⟨j - ((front ++ first).length + 1), ?_⟩
    simp only [List.length_append]
    omega
  have split : front ++ (first ++ .loopStart span :: last ++ back) =
      (front ++ first) ++ .loopStart span :: (last ++ back) := by simp
  rw [split, ← List.length_append, openAt_split_iff] at isOpen
  have fewer := isOpen last.length (by simp only [List.length_append] at behind; omega)
  have beginning := balanced.beginnings first.length
  have total := balanced.total
  rw [List.take_left] at fewer beginning
  simp only [starts_append, stops_append, starts_loopStart, stops_loopStart] at total
  omega

theorem not_unclosed_of_balanced (front : List Instruction) {inner : List Instruction}
    (balanced : Balanced inner) {i : Nat} (inside : front.length ≤ i) :
    ¬ Unclosed (front ++ inner) i := by
  intro never
  have before := never.before
  rw [List.length_append] at before
  rw [Unclosed, List.length_append, ← List.append_nil (front ++ inner), List.append_assoc] at never
  exact not_openAt_of_balanced front [] balanced inside before (Nat.le_refl _) never

/-! ### What a scan leaves open -/

theorem Balanced.append {a b : List Instruction} (first : Balanced a) (second : Balanced b) :
    Balanced (a ++ b) := by
  refine ⟨fun n => ?_, ?_⟩
  · have left := first.beginnings n
    have right := second.beginnings (n - a.length)
    rw [List.take_append, starts_append, stops_append]
    omega
  · rw [starts_append, stops_append, first.total, second.total]

theorem Balanced.loop {body : List Instruction} (balanced : Balanced body) (start stop : Span) :
    Balanced (.loopStart start :: (body ++ [.loopEnd stop])) := by
  obtain ⟨tree, rfl⟩ := exists_tree_of_balanced balanced
  have closed := balanced_instructions (.loop start stop tree .nil)
  rwa [LoopTree.instructions_loop] at closed

theorem balanced_command (command : Command) : Balanced [command.instruction] :=
  balanced_instructions (.leaf command .nil)

/-- A program whose loop starts are closed but for some, innermost first, with matching programs
between these. -/
inductive Leaves : List Instruction → List Span → Prop where
  | nothing {program} (balanced : Balanced program) : Leaves program []
  | loop {before after outer} (span : Span) (outside : Leaves before outer)
      (balanced : Balanced after) : Leaves (before ++ .loopStart span :: after) (span :: outer)

theorem Leaves.append {program rest : List Instruction} {opened : List Span}
    (leaves : Leaves program opened) (balanced : Balanced rest) :
    Leaves (program ++ rest) opened := by
  cases leaves with
  | nothing whole => exact .nothing (whole.append balanced)
  | loop span outside inside =>
      rw [List.append_assoc, List.cons_append]
      exact .loop span outside (inside.append balanced)

/-- One more instruction changes the open loops as a scan says. -/
theorem Leaves.step {program : List Instruction} {instruction : Instruction}
    {opened next : List Span} (leaves : Leaves program opened)
    (stepped : openStep opened instruction = .ok next) :
    Leaves (program ++ [instruction]) next := by
  have command (command : Command) (same : instruction = command.instruction) :
      Leaves (program ++ [instruction]) next := by
    subst same
    rw [openStep_command] at stepped
    cases stepped
    exact leaves.append (balanced_command command)
  cases instruction with
  | act action count span => exact command (.act action count span) rfl
  | output span => exact command (.output span) rfl
  | input span => exact command (.input span) rfl
  | loopStart span =>
      cases opened <;> cases stepped <;>
        exact .loop span leaves ⟨fun n => by simp [starts, stops], rfl⟩
  | loopEnd stop =>
      cases leaves with
      | nothing whole => cases stepped
      | loop start outside inside =>
          cases stepped
          have closed := outside.append (inside.loop start stop)
          rwa [List.append_assoc]

theorem foldlM_concat (program : List Instruction) (instruction : Instruction) :
    (program ++ [instruction]).foldlM openStep [] =
      (program.foldlM openStep [] >>= fun opened => openStep opened instruction) := by
  rw [List.foldlM_append]
  refine bind_congr fun opened => ?_
  rw [List.foldlM_cons]
  exact bind_pure _

theorem leaves_of_scan {program : List Instruction} {opened : List Span}
    (scanned : program.foldlM openStep [] = .ok opened) : Leaves program opened := by
  induction program using List.reverseRecOn generalizing opened with
  | nil =>
      cases scanned
      exact .nothing ⟨fun n => by simp [starts, stops], rfl⟩
  | append_singleton front instruction ih =>
      rw [foldlM_concat] at scanned
      cases before : front.foldlM openStep [] with
      | error e =>
          rw [before] at scanned
          cases scanned
      | ok outer =>
          rw [before] at scanned
          exact (ih before).step scanned

/-- A scan fails at a loop end with a matching program before it. -/
theorem split_of_scan_error {program : List Instruction} {e : Error}
    (failed : program.foldlM openStep [] = .error e) :
    ∃ before span after, program = before ++ .loopEnd span :: after ∧ Balanced before ∧
      e = .unbalancedLoop span := by
  induction program using List.reverseRecOn generalizing e with
  | nil => cases failed
  | append_singleton front instruction ih =>
      rw [foldlM_concat] at failed
      cases scanned : front.foldlM openStep [] with
      | error e' =>
          rw [scanned] at failed
          cases failed
          obtain ⟨before, span, after, rfl, balanced, rfl⟩ := ih scanned
          exact ⟨before, span, after ++ [instruction], by simp, balanced, rfl⟩
      | ok opened =>
          rw [scanned] at failed
          cases leaves_of_scan scanned with
          | nothing balanced =>
              cases instruction with
              | loopEnd span =>
                  cases failed
                  exact ⟨front, span, [], rfl, balanced, rfl⟩
              | _ => cases failed
          | loop span outside inside => cases instruction <;> cases failed

/-- Behind a beginning that leaves a loop open, some loop start is open. -/
theorem Leaves.exists_openAt {program : List Instruction} {span : Span} {outer : List Span}
    (leaves : Leaves program (span :: outer)) (rest : List Instruction) :
    ∃ i, OpenAt (program ++ rest) i program.length := by
  cases leaves with
  | @loop before after _ _ outside inside =>
      refine ⟨before.length, ?_⟩
      rw [List.append_assoc, List.cons_append, List.length_append, List.length_cons,
        Nat.add_comm after.length 1, ← Nat.add_assoc, openAt_split_iff]
      intro m le
      rw [List.take_append_of_le_length le]
      exact inside.beginnings m

/-- Every loop that is left open was started, and no end has gone with it. -/
theorem Leaves.starts_eq {program : List Instruction} {opened : List Span}
    (leaves : Leaves program opened) : starts program = stops program + opened.length := by
  induction leaves with
  | nothing balanced => exact balanced.total.symm
  | loop span outside inside ih =>
      rw [starts_append, stops_append, starts_loopStart, stops_loopStart, inside.total,
        List.length_cons, ih]
      omega

/-- The innermost loop that is left open is the last loop start that is never closed. -/
theorem Leaves.exists_last_unclosed {program : List Instruction} {span : Span} {outer : List Span}
    (leaves : Leaves program (span :: outer)) :
    ∃ i, program[i]? = some (.loopStart span) ∧ Unclosed program i ∧
      ∀ k > i, ¬ Unclosed program k := by
  cases leaves with
  | @loop before after _ _ outside inside =>
      refine ⟨before.length, by simp, ?_, ?_⟩
      · rw [Unclosed, List.length_append, List.length_cons, Nat.add_comm after.length 1,
          ← Nat.add_assoc, openAt_split_iff]
        intro m le
        exact inside.beginnings m
      · intro k behind never
        rw [List.append_cons] at never
        refine not_unclosed_of_balanced _ inside ?_ never
        rw [List.length_append]
        exact behind

/-! ### A scan finds the culprit -/

/-- A loop end with a matching program before it is stray. -/
theorem stray_of_balanced {before : List Instruction} (balanced : Balanced before) (span : Span)
    (after : List Instruction) : Stray (before ++ .loopEnd span :: after) before.length := by
  refine ⟨⟨span, by simp⟩, fun i isOpen => ?_⟩
  exact not_openAt_of_balanced [] _ balanced (Nat.zero_le i)
    (by simpa using isOpen.before) (by simp) isOpen

/-- Where a scan comes past, no loop end is stray. -/
theorem not_stray_of_scan {program : List Instruction} {opened : List Span} {j : Nat}
    (scanned : program.foldlM openStep [] = .ok opened) (rest : List Instruction)
    (within : j < program.length) : ¬ Stray (program ++ rest) j := by
  intro stray
  obtain ⟨stop, here⟩ := stray.stop
  rw [List.getElem?_append_left within] at here
  obtain ⟨before, after, rfl, rfl⟩ := split_of_getElem? here
  rw [List.foldlM_append] at scanned
  cases first : before.foldlM openStep [] with
  | error e =>
      rw [first] at scanned
      cases scanned
  | ok opened' =>
      cases opened' with
      | nil =>
          rw [first] at scanned
          cases scanned
      | cons span outer =>
          obtain ⟨i, isOpen⟩ :=
            (leaves_of_scan first).exists_openAt (.loopEnd stop :: (after ++ rest))
          rw [List.append_assoc, List.cons_append] at stray
          exact stray.alone i isOpen

theorem no_stray_of_scan {program : List Instruction} {opened : List Span}
    (scanned : program.foldlM openStep [] = .ok opened) (j : Nat) : ¬ Stray program j := by
  intro stray
  obtain ⟨span, here⟩ := stray.stop
  have within := (List.getElem?_eq_some_iff.mp here).1
  rw [← List.append_nil program] at stray
  exact not_stray_of_scan scanned [] within stray

theorem scan_of_balanced {program : List Instruction} (balanced : Balanced program) :
    program.foldlM openStep [] = .ok [] := by
  obtain ⟨tree, rfl⟩ := exists_tree_of_balanced balanced
  exact openStep_instructions tree []

theorem check_eq_ok_iff_balanced {program : List Instruction} :
    check program = .ok () ↔ Balanced program :=
  check_eq_ok_iff.trans balanced_iff_exists_tree.symm

theorem exists_culprit {program : List Instruction} {e : Error}
    (refused : check program = .error e) :
    ∃ span, e = .unbalancedLoop span ∧ Culprit program span := by
  cases scanned : program.foldlM openStep [] with
  | error e' =>
      rw [check, scanned] at refused
      cases refused
      obtain ⟨before, span, after, rfl, balanced, rfl⟩ := split_of_scan_error scanned
      refine ⟨span, rfl, .stray (by simp) (stray_of_balanced balanced span after) ?_⟩
      intro k lt
      exact not_stray_of_scan (scan_of_balanced balanced) _ lt
  | ok opened =>
      rw [check, scanned] at refused
      cases opened with
      | nil => cases refused
      | cons span outer =>
          cases refused
          obtain ⟨i, here, never, last⟩ := (leaves_of_scan scanned).exists_last_unclosed
          exact ⟨span, rfl, .unclosed (no_stray_of_scan scanned) here never last⟩

/-- A matching program has no culprit. -/
theorem not_culprit_of_balanced {program : List Instruction} (balanced : Balanced program)
    (span : Span) : ¬ Culprit program span := by
  intro culprit
  cases culprit with
  | stray here alone => exact no_stray_of_scan (scan_of_balanced balanced) _ alone
  | unclosed noStray here never =>
      exact not_unclosed_of_balanced [] balanced (Nat.zero_le _) never

/-- A program is refused exactly for its culprit. -/
theorem check_eq_error_iff {program : List Instruction} {e : Error} :
    check program = .error e ↔ ∃ span, e = .unbalancedLoop span ∧ Culprit program span := by
  constructor
  · exact exists_culprit
  · rintro ⟨span, rfl, culprit⟩
    cases verdict : check program with
    | ok done =>
        exact absurd culprit (not_culprit_of_balanced (check_eq_ok_iff_balanced.mp verdict) span)
    | error e =>
        obtain ⟨span', rfl, culprit'⟩ := exists_culprit verdict
        rw [culprit_unique culprit culprit']

end Brainfuck.Loops
