import Brainfuck.Proofs.Tape.Laws

/-!
The ideal tape behind a stored one: a byte at every integer place and a position among them. It has
no capacity and never grows. `ideal` reads it off a stored tape, and `ideal_apply` says that every
operation does to the reading what the ideal operation does, so a sequence of operations cannot be
told from the ideal one by looking (`shows_ideal`).
-/

namespace Brainfuck

/-- A byte at every integer place, and a position. -/
structure IdealTape where
  position : Int
  cell : Int → UInt8

namespace IdealTape

/-- All bytes are zero, and the position is zero. -/
def blank : IdealTape :=
  ⟨0, fun _ => 0⟩

/-- The byte at the position. -/
def current (s : IdealTape) : UInt8 :=
  s.cell s.position

/-- Writes the byte at the position. -/
def write (value : UInt8) (s : IdealTape) : IdealTape :=
  { s with cell := fun place => if place = s.position then value else s.cell place }

end IdealTape

namespace Tape

/-- What can be done to a tape. -/
inductive Operation where
  | moveLeft (amount : Nat)
  | moveRight (amount : Nat)
  | add (amount : UInt32)
  | sub (amount : UInt32)
  | set (value : UInt8)
deriving DecidableEq, Repr

/-- The effect of an operation on a stored tape. -/
def Operation.apply : Operation → Tape → Tape
  | .moveLeft amount => Tape.moveLeft amount
  | .moveRight amount => Tape.moveRight amount
  | .add amount => Tape.add amount
  | .sub amount => Tape.sub amount
  | .set value => Tape.set value

/-- The effect of an operation on an ideal tape: moves add to the position, the others write the
byte there, with sums and differences taken modulo 256. -/
def Operation.applyIdeal : Operation → IdealTape → IdealTape
  | .moveLeft amount, s => { s with position := s.position - amount }
  | .moveRight amount, s => { s with position := s.position + amount }
  | .add amount, s => s.write (.ofNat (s.current.toNat + amount.toNat))
  | .sub amount, s => s.write (.ofInt (s.current.toNat - amount.toNat))
  | .set value, s => s.write value

/-- Operations in order, on a stored tape. -/
def applyAll (operations : List Operation) (t : Tape) : Tape :=
  operations.foldl (fun t operation => operation.apply t) t

/-- Operations in order, on an ideal tape. -/
def applyAllIdeal (operations : List Operation) (s : IdealTape) : IdealTape :=
  operations.foldl (fun s operation => operation.applyIdeal s) s

/-! ### Reading the ideal tape off a stored one -/

/-- What a stored tape shows: the position of its cursor, and the cell at every place. -/
def ideal (t : Tape) : IdealTape :=
  ⟨t.position, t.cellAt⟩

theorem current_ideal (t : Tape) : t.ideal.current = t.value :=
  (value_eq_cellAt t).symm

theorem ideal_blank (capacity : Nat) (pos : 0 < capacity) :
    (blank capacity pos).ideal = IdealTape.blank := by
  have zero (place : Int) : (blank capacity pos).cellAt place = 0 := by
    simp only [cellAt, blank, Array.getD_eq_getD_getElem?, Array.getElem?_replicate]
    split
    · rfl
    · split <;> rfl
  exact congrArg (IdealTape.mk 0) (funext zero)

theorem ideal_set (value : UInt8) (t : Tape) : (t.set value).ideal = t.ideal.write value :=
  congrArg (IdealTape.mk t.position) (funext (cellAt_set value t))

/-- Every operation does to the reading what the ideal operation does. -/
theorem ideal_apply (operation : Operation) (t : Tape) :
    (operation.apply t).ideal = operation.applyIdeal t.ideal := by
  cases operation with
  | moveLeft amount =>
      simp only [Operation.apply, ideal, position_moveLeft, funext (cellAt_moveLeft amount t)]
      rfl
  | moveRight amount =>
      simp only [Operation.apply, ideal, position_moveRight, funext (cellAt_moveRight amount t)]
      rfl
  | add amount =>
      rw [Operation.applyIdeal, current_ideal, ← add_toUInt8_eq_ofNat]
      exact ideal_set _ t
  | sub amount =>
      rw [Operation.applyIdeal, current_ideal, ← sub_toUInt8_eq_ofInt]
      exact ideal_set _ t
  | set value => exact ideal_set value t

theorem ideal_applyAll (operations : List Operation) (t : Tape) :
    (applyAll operations t).ideal = applyAllIdeal operations t.ideal := by
  induction operations generalizing t with
  | nil => rfl
  | cons operation rest ih =>
      simp only [applyAll, applyAllIdeal, List.foldl_cons] at ih ⊢
      rw [ih, ideal_apply]

/-- After every part of a sequence of operations a tape that was new shows what the ideal tape has:
its position, the current byte and the byte at every place, stored or not. Cursor and origin stay
among the stored cells. -/
theorem shows_ideal (capacity : Nat) (pos : 0 < capacity) (operations : List Operation) (n : Nat) :
    let t := applyAll (operations.take n) (blank capacity pos)
    let s := applyAllIdeal (operations.take n) .blank
    (t.firstIndex ≤ t.cursor ∧ t.cursor ≤ t.lastIndex) ∧
      (t.firstIndex ≤ t.origin ∧ t.origin ≤ t.lastIndex) ∧
      t.position = s.position ∧ t.value = s.current ∧ ∀ place, t.cellAt place = s.cell place := by
  intro t s
  have shown : t.ideal = s := by
    rw [ideal_applyAll, ideal_blank]
  have cursor := t.cursor_lt
  have origin := t.origin_lt
  refine ⟨⟨Nat.zero_le _, Nat.le_sub_one_of_lt cursor⟩,
    ⟨Nat.zero_le _, Nat.le_sub_one_of_lt origin⟩, ?_⟩
  rw [← shown]
  exact ⟨rfl, (current_ideal t).symm, fun _ => rfl⟩

/-- The theorem at a tape of two cells that grows to the left and then to the right. -/
theorem shows_ideal_two_cells :
    (0 < 2) ∧
      let operations := [.add 300, .moveLeft 3, .sub 1, .moveRight 9, .set 7]
      let t := applyAll (operations.take 4) (blank 2 (by decide))
      let s := applyAllIdeal (operations.take 4) .blank
      (t.firstIndex ≤ t.cursor ∧ t.cursor ≤ t.lastIndex) ∧
        (t.firstIndex ≤ t.origin ∧ t.origin ≤ t.lastIndex) ∧
        t.position = s.position ∧ t.value = s.current ∧ ∀ place, t.cellAt place = s.cell place :=
  ⟨by decide, shows_ideal 2 (by decide) [.add 300, .moveLeft 3, .sub 1, .moveRight 9, .set 7] 4⟩

end Tape

end Brainfuck
