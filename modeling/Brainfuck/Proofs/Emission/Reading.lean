import Brainfuck.Emission.Listing
import Brainfuck.Proofs.Emission.Body
import Brainfuck.Proofs.LoopTree

/-!
Reading statement lines. A line is read without its leading spaces, and as a whole: as the head of a
while loop, the end of a block, or one statement. Numbers are read in the one decimal form that has
no needless zeros. Every line that a listing writes reads as what its instruction asks for.
-/

namespace Brainfuck.Emission

/-! ### Reading -/

/-- The number that some digits write. -/
def number? (digits : List Char) : Option Nat :=
  let n := Nat.ofDigitChars 10 digits 0
  if Nat.toDigits 10 n = digits then some n else none

/-- The number between two words that a text starts with, and what follows the second word. -/
def numberBetween? (before after : String) (text : List Char) : Option (Nat × List Char) := do
  let text ← before.toList.isPrefixOf? text
  let n ← number? (text.takeWhile Char.isDigit)
  let rest ← after.toList.isPrefixOf? (text.dropWhile Char.isDigit)
  return (n, rest)

/-- The methods that a step can call, with the text of the call. -/
def calls : List (List Char × Step) := [
  ("tape.move_right();".toList, .moveRight),
  ("tape.move_left();".toList, .moveLeft),
  ("tape.increment();".toList, .increment),
  ("tape.decrement();".toList, .decrement),
  ("tape.input();".toList, .input),
  ("tape.output();".toList, .output)]

/-- The step that a text writes. -/
def Step.read? (text : List Char) : Option Step :=
  match numberBetween? "tape.current() += " ";" text with
  | some (n, []) => some (.add n)
  | _ =>
      match numberBetween? "tape.current() -= " ";" text with
      | some (n, []) => some (.subtract n)
      | _ => calls.lookup text

/-- The statement that a text writes. -/
def Statement.read? (text : List Char) : Option Statement :=
  match numberBetween? "for (std::size_t i = 0; i < " "; ++i) " text with
  | some (n, rest) => (Step.read? rest).map (.repeated n)
  | none => (Step.read? text).map .once

/-- The piece of a body that a line writes. -/
def readLine? (line : String) : Option (Piece Statement Unit Unit) :=
  let text := line.toList.dropWhile (· == ' ')
  if text = "while (tape.read() != 0) \x7b".toList then some (.opening ())
  else if text = "\x7d".toList then some (.closing ())
  else (Statement.read? text).map .leaf

/-- The body that some lines write. -/
def Body.read? (lines : List String) : Option Body := do
  Nest.ofPieces? (← lines.mapM readLine?)

/-! ### Numbers -/

theorem number?_toDigits (n : Nat) : number? (Nat.toDigits 10 n) = some n := by
  have value : Nat.ofDigitChars 10 (Nat.toDigits 10 n) 0 = n := Nat.ofDigitChars_ten_toDigits
  simp [number?, value]

theorem isDigit_toDigits (n : Nat) : ∀ c ∈ Nat.toDigits 10 n, c.isDigit = true :=
  fun _ => Nat.isDigit_of_mem_toDigits (by decide) (by decide)

/-- A number is read in full, since what follows it starts with a semicolon. -/
theorem numberBetween?_written (before : String) (n : Nat) {after : String} (rest : List Char)
    (semicolon : after.toList.head? = some ';') :
    numberBetween? before after
        (before.toList ++ (Nat.toDigits 10 n ++ (after.toList ++ rest))) = some (n, rest) := by
  obtain ⟨tail, split⟩ := List.head?_eq_some_iff.mp semicolon
  have digits : (Nat.toDigits 10 n ++ (after.toList ++ rest)).takeWhile Char.isDigit =
      Nat.toDigits 10 n := by
    rw [List.takeWhile_append_of_pos (isDigit_toDigits n), split, List.cons_append,
      List.takeWhile_cons_of_neg (by decide), List.append_nil]
  have behind : (Nat.toDigits 10 n ++ (after.toList ++ rest)).dropWhile Char.isDigit =
      after.toList ++ rest := by
    rw [List.dropWhile_append_of_pos (isDigit_toDigits n), split, List.cons_append,
      List.dropWhile_cons_of_neg (by decide)]
  have first := List.isPrefixOf?_eq_some_iff_append_eq.mpr
    (Eq.refl (before.toList ++ (Nat.toDigits 10 n ++ (after.toList ++ rest))))
  have last := List.isPrefixOf?_eq_some_iff_append_eq.mpr (Eq.refl (after.toList ++ rest))
  rw [numberBetween?, first, Option.bind_eq_bind, Option.bind_some, digits, number?_toDigits,
    behind]
  simp only [Option.bind_eq_bind, Option.bind_some, last]
  rfl

/-! ### Statements -/

theorem Step.read?_add (n : Nat) :
    Step.read? ("tape.current() += ".toList ++ (Nat.toDigits 10 n ++ ";".toList)) =
      some (.add n) := by
  have number := @numberBetween?_written "tape.current() += " n ";" [] rfl
  rw [List.append_nil] at number
  rw [Step.read?, number]

theorem Step.read?_subtract (n : Nat) :
    Step.read? ("tape.current() -= ".toList ++ (Nat.toDigits 10 n ++ ";".toList)) =
      some (.subtract n) := by
  have other : numberBetween? "tape.current() += " ";"
      ("tape.current() -= ".toList ++ (Nat.toDigits 10 n ++ ";".toList)) = none := rfl
  have number := @numberBetween?_written "tape.current() -= " n ";" [] rfl
  rw [List.append_nil] at number
  rw [Step.read?, other, number]

theorem Statement.read?_repeated (n : Nat) {after : String} {call : List Char} {step : Step}
    (split : after.toList = "; ++i) ".toList ++ call) (read : Step.read? call = some step) :
    Statement.read? ("for (std::size_t i = 0; i < ".toList ++
      (Nat.toDigits 10 n ++ after.toList)) = some (.repeated n step) := by
  have number := @numberBetween?_written "for (std::size_t i = 0; i < " n "; ++i) " call rfl
  rw [split, Statement.read?, number]
  exact congrArg (Option.map (Statement.repeated n)) read

/-- A text that starts as steps do is no counting loop. -/
theorem Statement.read?_once {text : List Char} {step : Step} (first : text.head? = some 't')
    (read : Step.read? text = some step) : Statement.read? text = some (.once step) := by
  obtain ⟨tail, rfl⟩ := List.head?_eq_some_iff.mp first
  have other : numberBetween? "for (std::size_t i = 0; i < " "; ++i) " ('t' :: tail) = none := rfl
  rw [Statement.read?, other]
  exact congrArg (Option.map Statement.once) read

/-- The step of an action done once. -/
def onceStep : Action → Step
  | .right => .moveRight
  | .left => .moveLeft
  | .add => .increment
  | .sub => .decrement

/-- The statement of a counted action: moves are repeated, and changes are made in one step. -/
def countedStep (count : Nat) : Action → Statement
  | .right => .repeated count .moveRight
  | .left => .repeated count .moveLeft
  | .add => .once (.add count)
  | .sub => .once (.subtract count)

/-- The statement of a command. -/
def commandStatement : Command → Statement
  | .act action count _ =>
      if count = 1 then .once (onceStep action) else countedStep count.toNat action
  | .output _ => .once .output
  | .input _ => .once .input

theorem read?_onceStatement (action : Action) :
    Statement.read? (Listing.onceStatement action).toList = some (.once (onceStep action)) := by
  cases action <;> rfl

/-- A statement with a number in it as a list of characters. -/
theorem toList_numbered (before after : String) (count : UInt32) :
    (before ++ toString count ++ after).toList =
      before.toList ++ (Nat.toDigits 10 count.toNat ++ after.toList) := by
  have digits : (toString count).toList = Nat.toDigits 10 count.toNat := Nat.toList_repr
  rw [String.toList_append, String.toList_append, digits, List.append_assoc]

theorem read?_countedStatement (count : UInt32) (action : Action) :
    Statement.read? (Listing.countedStatement count action).toList =
      some (countedStep count.toNat action) := by
  cases action with
  | right =>
      have text : (Listing.countedStatement count .right).toList = _ :=
        toList_numbered "for (std::size_t i = 0; i < " "; ++i) tape.move_right();" count
      rw [text]
      exact Statement.read?_repeated _ rfl rfl
  | left =>
      have text : (Listing.countedStatement count .left).toList = _ :=
        toList_numbered "for (std::size_t i = 0; i < " "; ++i) tape.move_left();" count
      rw [text]
      exact Statement.read?_repeated _ rfl rfl
  | add =>
      have text : (Listing.countedStatement count .add).toList = _ :=
        toList_numbered "tape.current() += " ";" count
      rw [text]
      exact Statement.read?_once rfl (Step.read?_add _)
  | sub =>
      have text : (Listing.countedStatement count .sub).toList = _ :=
        toList_numbered "tape.current() -= " ";" count
      rw [text]
      exact Statement.read?_once rfl (Step.read?_subtract _)

/-! ### Texts without a line feed -/

/-- A text with a number between two words is the one, the digits, the other and the rest. -/
theorem split_of_numberBetween? {before after : String} {text rest : List Char} {n : Nat}
    (found : numberBetween? before after text = some (n, rest)) :
    ∃ digits, (∀ c ∈ digits, c.isDigit = true) ∧
      text = before.toList ++ (digits ++ (after.toList ++ rest)) := by
  obtain ⟨text', first, found⟩ := Option.bind_eq_some_iff.mp found
  obtain ⟨m, -, found⟩ := Option.bind_eq_some_iff.mp found
  obtain ⟨rest', last, found⟩ := Option.bind_eq_some_iff.mp found
  cases found
  refine ⟨text'.takeWhile Char.isDigit, List.all_eq_true.mp List.all_takeWhile, ?_⟩
  rw [List.isPrefixOf?_eq_some_iff_append_eq.mp last, List.takeWhile_append_dropWhile,
    List.isPrefixOf?_eq_some_iff_append_eq.mp first]

theorem newline_notMem_of_numberBetween? {before after : String} {text rest : List Char} {n : Nat}
    (found : numberBetween? before after text = some (n, rest)) (first : '\n' ∉ before.toList)
    (last : '\n' ∉ after.toList) (behind : '\n' ∉ rest) : '\n' ∉ text := by
  obtain ⟨digits, isDigit, rfl⟩ := split_of_numberBetween? found
  have number : '\n' ∉ digits := fun member => absurd (isDigit _ member) (by decide)
  simp only [List.mem_append, not_or]
  exact ⟨first, number, last, behind⟩

theorem newline_notMem_of_step {text : List Char} {step : Step}
    (read : Step.read? text = some step) : '\n' ∉ text := by
  unfold Step.read? at read
  split at read
  · rename_i found
    exact newline_notMem_of_numberBetween? found (by decide) (by decide) List.not_mem_nil
  · split at read
    · rename_i found
      exact newline_notMem_of_numberBetween? found (by decide) (by decide) List.not_mem_nil
    · obtain ⟨before, after, split, -⟩ := List.lookup_eq_some_iff.mp read
      have known : (text, step) ∈ calls := by
        rw [split]
        exact List.mem_append_right _ List.mem_cons_self
      have clean : ∀ call ∈ calls, '\n' ∉ call.1 := by decide
      exact clean _ known

theorem newline_notMem_of_statement {text : List Char} {statement : Statement}
    (read : Statement.read? text = some statement) : '\n' ∉ text := by
  unfold Statement.read? at read
  split at read
  · rename_i found
    obtain ⟨step, read, -⟩ := Option.map_eq_some_iff.mp read
    exact newline_notMem_of_numberBetween? found (by decide) (by decide)
      (newline_notMem_of_step read)
  · obtain ⟨step, read, -⟩ := Option.map_eq_some_iff.mp read
    exact newline_notMem_of_step read

/-- What reads as one line is one line. -/
theorem newline_notMem_of_readLine? {line : String} {piece : Piece Statement Unit Unit}
    (read : readLine? line = some piece) : '\n' ∉ line.toList := by
  have indent : '\n' ∉ line.toList.takeWhile (· == ' ') := by
    intro member
    exact absurd (List.all_eq_true.mp List.all_takeWhile _ member) (by decide)
  have statement : '\n' ∉ line.toList.dropWhile (· == ' ') := by
    unfold readLine? at read
    dsimp only at read
    split at read
    · rename_i same
      rw [same]
      decide
    · split at read
      · rename_i same
        rw [same]
        decide
      · obtain ⟨statement, read, -⟩ := Option.map_eq_some_iff.mp read
        exact newline_notMem_of_statement read
  rw [← List.takeWhile_append_dropWhile (p := (· == ' ')) (l := line.toList), List.mem_append,
    not_or]
  exact ⟨indent, statement⟩

end Brainfuck.Emission
