import Brainfuck.Error

/-!
The tape: a row of bytes with a cursor that never runs out of room. Cells are stored in one array;
a move that would leave it doubles the array first, on the side of the move, as often as it takes.
Growth to the left moves the cursor and the origin, the cell where the cursor started, along with
the old cells, so the cursor's place relative to the origin is changed by moves alone.
-/

namespace Brainfuck

/-- The stored cells, with the indices of the current cell and of the starting cell. -/
structure Tape where
  cells : Array UInt8
  cursor : Nat
  origin : Nat
  cursor_lt : cursor < cells.size
  origin_lt : origin < cells.size
deriving DecidableEq, Repr

namespace Tape

/-- The number of cells of a new tape, unless another one is asked for. -/
def defaultCapacity : Nat :=
  30000

/-- A new tape: all cells are zero and the cursor is on the first one. -/
def blank (capacity : Nat) (pos : 0 < capacity) : Tape where
  cells := Array.replicate capacity 0
  cursor := 0
  origin := 0
  cursor_lt := by simpa using pos
  origin_lt := by simpa using pos

/-- A new tape, which has at least one cell. -/
def ofCapacity (capacity : Nat) : Except Error Tape :=
  if h : 0 < capacity then .ok (blank capacity h) else .error .emptyTape

/-! ### Looking at a tape -/

/-- The number of stored cells. -/
def capacity (t : Tape) : Nat :=
  t.cells.size

theorem capacity_pos (t : Tape) : 0 < t.capacity :=
  Nat.zero_lt_of_lt t.cursor_lt

/-- The cursor's place relative to the starting cell. -/
def position (t : Tape) : Int :=
  (t.cursor : Int) - t.origin

/-- The least index that the cursor reaches without growth. -/
def firstIndex (_ : Tape) : Nat :=
  0

/-- The greatest index that the cursor reaches without growth. -/
def lastIndex (t : Tape) : Nat :=
  t.capacity - 1

/-- The current cell. -/
def value (t : Tape) : UInt8 :=
  have := t.cursor_lt
  t.cells[t.cursor]

/-- The cell at a place relative to the starting cell. Cells that are not stored are zero. -/
def cellAt (t : Tape) (place : Int) : UInt8 :=
  let index := t.origin + place
  if index < 0 then 0 else t.cells.getD index.toNat 0

/-! ### Changing the current cell -/

/-- Writes the current cell. -/
def set (value : UInt8) : Tape → Tape
  | ⟨cells, cursor, origin, cursor_lt, origin_lt⟩ =>
      ⟨cells.set cursor value, cursor, origin, by simpa using cursor_lt, by simpa using origin_lt⟩

/-- Adds to the current cell, modulo 256. -/
def add (amount : UInt32) (t : Tape) : Tape :=
  let value := t.value + amount.toUInt8
  t.set value

/-- Subtracts from the current cell, modulo 256. -/
def sub (amount : UInt32) (t : Tape) : Tape :=
  let value := t.value - amount.toUInt8
  t.set value

/-! ### Moving the cursor -/

/-- Doubles the capacity with zeros before the old cells. -/
def doubleLeft : Tape → Tape
  | ⟨cells, cursor, origin, cursor_lt, origin_lt⟩ =>
      { cells := Array.replicate cells.size 0 ++ cells
        cursor := cursor + cells.size
        origin := origin + cells.size
        cursor_lt := by simp; omega
        origin_lt := by simp; omega }

/-- Doubles the capacity with zeros after the old cells. -/
def doubleRight : Tape → Tape
  | ⟨cells, cursor, origin, cursor_lt, origin_lt⟩ =>
      { cells := cells ++ Array.replicate cells.size 0
        cursor
        origin
        cursor_lt := by simp; omega
        origin_lt := by simp; omega }

@[simp] theorem cursor_doubleLeft (t : Tape) : t.doubleLeft.cursor = t.cursor + t.capacity := rfl

@[simp] theorem cursor_doubleRight (t : Tape) : t.doubleRight.cursor = t.cursor := rfl

@[simp] theorem capacity_doubleLeft (t : Tape) : t.doubleLeft.capacity = 2 * t.capacity := by
  simp [doubleLeft, capacity]; omega

@[simp] theorem capacity_doubleRight (t : Tape) : t.doubleRight.capacity = 2 * t.capacity := by
  simp [doubleRight, capacity]; omega

/-- Moves the cursor to the left, after as much growth as it takes. -/
def moveLeft (amount : Nat) (t : Tape) : Tape :=
  if amount ≤ t.cursor then
    { t with
      cursor := t.cursor - amount
      cursor_lt := Nat.lt_of_le_of_lt (Nat.sub_le ..) t.cursor_lt }
  else
    moveLeft amount t.doubleLeft
termination_by amount - t.cursor
decreasing_by
  have := t.capacity_pos
  simp only [cursor_doubleLeft]
  omega

/-- Moves the cursor to the right, after as much growth as it takes. -/
def moveRight (amount : Nat) (t : Tape) : Tape :=
  if h : t.cursor + amount < t.capacity then
    { t with cursor := t.cursor + amount, cursor_lt := h }
  else
    moveRight amount t.doubleRight
termination_by t.cursor + amount + 1 - t.capacity
decreasing_by
  have := t.capacity_pos
  simp only [cursor_doubleRight, capacity_doubleRight]
  omega

/-! ### What growth has happened -/

/-- The two sides of a tape. -/
inductive Side where
  | left
  | right
deriving DecidableEq, Repr

/-- One doubling: its side and the capacity before it. -/
structure Growth where
  side : Side
  capacity : Nat
deriving DecidableEq, Repr

/-- All growth, in order, of a tape that was new with `initial` cells. Its n-th doubling, from
zero on, found `initial * 2 ^ n` cells and moved the origin by as many, if it was on the left, or
not at all; so the origin, counted in initial capacities, has the sides of the doublings as its
binary digits. -/
def growthFrom (initial : Nat) (t : Tape) : List Growth :=
  (List.range (t.capacity / initial).log2).map fun n =>
    ⟨if (t.origin / initial).testBit n then .left else .right, initial <<< n⟩

end Tape

end Brainfuck
