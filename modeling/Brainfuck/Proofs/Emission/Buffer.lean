import Brainfuck.Proofs.Tape.Laws

/-!
The tape class that the fixed text declares, method by method and assignment by assignment. What
the class leaves undefined has no value here: looking at a byte that was never written, touching
memory out of bounds, going below zero. `ofTape` lays a stored tape out as an object of the class,
and every method does to that object what the tape does (`moveLeft?_ofTape` and its siblings), so
objects that start as new tapes never come near anything undefined.
-/

namespace Brainfuck.Emission

/-! ### Memory -/

/-- A block of memory; a byte that nothing was written to has no value. -/
abbrev Memory := List (Option UInt8)

namespace Memory

/-- A block that nothing was written to, as `new unsigned char[size]` makes it. -/
def allocate (size : Nat) : Memory :=
  List.replicate size none

/-- The block with bytes from an index on replaced by others, within its bounds. -/
def overwrite? (block : Memory) (index : Nat) (bytes : Memory) : Option Memory :=
  if index + bytes.length ≤ block.length then
    some (block.take index ++ bytes ++ block.drop (index + bytes.length))
  else none

/-- Fills bytes from an index on with one value, as `std::memset` does. -/
def fill? (block : Memory) (index : Nat) (value : UInt8) (count : Nat) : Option Memory :=
  block.overwrite? index (List.replicate count (some value))

/-- Copies the first bytes of another block to an index, as `std::memcpy` does. -/
def copy? (block : Memory) (index : Nat) (source : Memory) (count : Nat) : Option Memory :=
  if count ≤ source.length then block.overwrite? index (source.take count) else none

@[simp] theorem length_allocate (size : Nat) : (allocate size).length = size :=
  List.length_replicate ..

theorem allocate_double (size : Nat) : allocate (size * 2) = allocate size ++ allocate size := by
  rw [Nat.mul_two]
  exact List.replicate_append_replicate.symm

/-- Bytes as many as those between two parts of a block come to stand in their place. -/
theorem overwrite?_between (first old last : Memory) {index : Nat} {bytes : Memory}
    (here : first.length = index) (same : old.length = bytes.length) :
    overwrite? (first ++ (old ++ last)) index bytes = some (first ++ (bytes ++ last)) := by
  subst here
  have fits : first.length + bytes.length ≤ (first ++ (old ++ last)).length := by
    simp only [List.length_append]
    omega
  rw [overwrite?, if_pos fits, List.take_left, ← List.drop_drop, List.drop_left, ← same,
    List.drop_left, List.append_assoc]

theorem fill?_between (first old last : Memory) {index count : Nat} (value : UInt8)
    (here : first.length = index) (same : old.length = count) :
    fill? (first ++ (old ++ last)) index value count =
      some (first ++ (List.replicate count (some value) ++ last)) :=
  overwrite?_between first old last here (by simpa using same)

theorem copy?_between (first old last source : Memory) {index count : Nat}
    (here : first.length = index) (same : old.length = count) (whole : source.length = count) :
    copy? (first ++ (old ++ last)) index source count = some (first ++ (source ++ last)) := by
  rw [copy?, if_pos (Nat.le_of_eq whole.symm), List.take_of_length_le (Nat.le_of_eq whole)]
  exact overwrite?_between first old last here (same.trans whole.symm)

end Memory

/-! ### The class -/

/-- An object of the class, with the block that its buffer points to. -/
structure Buffer where
  tape : Memory
  capacity : Nat
  ptr : Nat
  minPtr : Nat
  maxPtr : Nat
deriving DecidableEq, Repr

namespace Buffer

/-- One less than a size. A size never goes below zero. -/
def oneLess? : Nat → Option Nat
  | 0 => none
  | size + 1 => some size

theorem oneLess?_of_pos {size : Nat} (pos : 0 < size) : oneLess? size = some (size - 1) := by
  cases size with
  | zero => cases pos
  | succ size => rfl

/-- The constructor, for a capacity. -/
def construct? (capacity : Nat) : Option Buffer := do
  let tape ← (Memory.allocate capacity).fill? 0 0 capacity
  let maxPtr ← oneLess? capacity
  return { tape, capacity, ptr := 0, minPtr := 0, maxPtr }

/-- Doubles the buffer, with zeros before the old cells. -/
def expandTapeLeft? (b : Buffer) : Option Buffer := do
  let newCapacity := b.capacity * 2
  let newTape := Memory.allocate newCapacity
  let newTape ← newTape.fill? 0 0 b.capacity
  let newTape ← newTape.copy? b.capacity b.tape b.capacity
  return { b with
    tape := newTape
    ptr := b.ptr + b.capacity
    maxPtr := b.maxPtr + b.capacity
    capacity := newCapacity }

/-- Doubles the buffer, with zeros after the old cells. -/
def expandTapeRight? (b : Buffer) : Option Buffer := do
  let newCapacity := b.capacity * 2
  let newTape := Memory.allocate newCapacity
  let newTape ← newTape.copy? 0 b.tape b.capacity
  let newTape ← newTape.fill? b.capacity 0 b.capacity
  let maxPtr ← oneLess? newCapacity
  return { b with tape := newTape, maxPtr, capacity := newCapacity }

/-- Moves one cell to the left, after growth if the cursor is at the lower end. -/
def moveLeft? (b : Buffer) : Option Buffer := do
  let b ← if b.ptr = b.minPtr then b.expandTapeLeft? else some b
  let ptr ← oneLess? b.ptr
  return { b with ptr }

/-- Moves one cell to the right, after growth if the cursor is at the upper end. -/
def moveRight? (b : Buffer) : Option Buffer := do
  let b ← if b.ptr = b.maxPtr then b.expandTapeRight? else some b
  return { b with ptr := b.ptr + 1 }

/-- The current cell. -/
def read? (b : Buffer) : Option UInt8 := do
  let cell ← b.tape[b.ptr]?
  cell

/-- Writes the current cell. -/
def write? (value : UInt8) (b : Buffer) : Option Buffer :=
  if b.ptr < b.tape.length then some { b with tape := b.tape.set b.ptr (some value) } else none

/-- Adds one to the current cell, modulo 256. -/
def increment? (b : Buffer) : Option Buffer := do
  let cell ← b.read?
  b.write? (cell + 1)

/-- Subtracts one from the current cell, modulo 256. -/
def decrement? (b : Buffer) : Option Buffer := do
  let cell ← b.read?
  b.write? (cell - 1)

/-- Adds to the current cell; the sum is stored modulo 256. -/
def add? (amount : Nat) (b : Buffer) : Option Buffer := do
  let cell ← b.read?
  b.write? (.ofNat (cell.toNat + amount))

/-- Subtracts from the current cell; the difference is stored modulo 256. -/
def subtract? (amount : Nat) (b : Buffer) : Option Buffer := do
  let cell ← b.read?
  b.write? (.ofInt (cell.toNat - amount))

/-! ### Stored tapes as objects of the class -/

/-- The object of the class that has the cells and the cursor of a stored tape. -/
def ofTape (t : Tape) : Buffer where
  tape := t.cells.toList.map some
  capacity := t.capacity
  ptr := t.cursor
  minPtr := t.firstIndex
  maxPtr := t.lastIndex

@[simp] theorem length_tape_ofTape (t : Tape) : (ofTape t).tape.length = t.capacity :=
  List.length_map ..

theorem construct?_eq (capacity : Nat) (pos : 0 < capacity) :
    construct? capacity = some (ofTape (.blank capacity pos)) := by
  have zeroed : (Memory.allocate capacity).fill? 0 0 capacity =
      some (List.replicate capacity (some 0)) := by
    simpa using Memory.fill?_between [] (.allocate capacity) [] 0 rfl (Memory.length_allocate _)
  simp [construct?, zeroed, oneLess?_of_pos pos, ofTape, Tape.blank, Tape.capacity,
    Tape.firstIndex, Tape.lastIndex]

theorem read?_ofTape (t : Tape) : (ofTape t).read? = some t.value := by
  have stored : t.cells.toList[t.cursor]? = some t.value := by
    rw [Array.getElem?_toList, Array.getElem?_eq_getElem t.cursor_lt]
    rfl
  simp [read?, ofTape, stored]

theorem write?_ofTape (value : UInt8) (t : Tape) :
    (ofTape t).write? value = some (ofTape (t.set value)) := by
  have inside : (ofTape t).ptr < (ofTape t).tape.length := by
    rw [length_tape_ofTape]
    exact t.cursor_lt
  rw [write?, if_pos inside]
  simp [ofTape, Tape.set, Tape.capacity, Tape.firstIndex, Tape.lastIndex]

theorem increment?_ofTape (t : Tape) : (ofTape t).increment? = some (ofTape (t.add 1)) := by
  rw [increment?, read?_ofTape]
  exact write?_ofTape (t.value + 1) t

theorem decrement?_ofTape (t : Tape) : (ofTape t).decrement? = some (ofTape (t.sub 1)) := by
  rw [decrement?, read?_ofTape]
  exact write?_ofTape (t.value - 1) t

theorem add?_ofTape (amount : UInt32) (t : Tape) :
    (ofTape t).add? amount.toNat = some (ofTape (t.add amount)) := by
  rw [add?, read?_ofTape, Tape.add, Tape.add_toUInt8_eq_ofNat]
  exact write?_ofTape _ t

theorem subtract?_ofTape (amount : UInt32) (t : Tape) :
    (ofTape t).subtract? amount.toNat = some (ofTape (t.sub amount)) := by
  rw [subtract?, read?_ofTape, Tape.sub, Tape.sub_toUInt8_eq_ofInt]
  exact write?_ofTape _ t

theorem ofTape_doubleLeft (t : Tape) :
    ofTape t.doubleLeft =
      { tape := List.replicate t.capacity (some 0) ++ (ofTape t).tape
        capacity := t.capacity * 2
        ptr := t.cursor + t.capacity
        minPtr := t.firstIndex
        maxPtr := t.lastIndex + t.capacity } := by
  have last : t.capacity * 2 - 1 = t.lastIndex + t.capacity := by
    have := t.capacity_pos
    simp only [Tape.lastIndex]
    omega
  rw [← last]
  simp [ofTape, Tape.doubleLeft, Tape.capacity, Tape.firstIndex, Tape.lastIndex, Nat.mul_two]

theorem ofTape_doubleRight (t : Tape) :
    ofTape t.doubleRight =
      { tape := (ofTape t).tape ++ List.replicate t.capacity (some 0)
        capacity := t.capacity * 2
        ptr := t.cursor
        minPtr := t.firstIndex
        maxPtr := t.capacity * 2 - 1 } := by
  simp [ofTape, Tape.doubleRight, Tape.capacity, Tape.firstIndex, Tape.lastIndex, Nat.mul_two]

theorem expandTapeLeft?_ofTape (t : Tape) :
    (ofTape t).expandTapeLeft? = some (ofTape t.doubleLeft) := by
  have zeroed : (Memory.allocate (t.capacity * 2)).fill? 0 0 t.capacity =
      some (List.replicate t.capacity (some 0) ++ Memory.allocate t.capacity) := by
    rw [Memory.allocate_double]
    exact Memory.fill?_between [] _ _ 0 rfl (Memory.length_allocate _)
  have copied : Memory.copy? (List.replicate t.capacity (some 0) ++ Memory.allocate t.capacity)
      t.capacity (ofTape t).tape t.capacity =
        some (List.replicate t.capacity (some 0) ++ (ofTape t).tape) := by
    simpa using Memory.copy?_between (List.replicate t.capacity (some 0)) (.allocate t.capacity) []
      (ofTape t).tape List.length_replicate (Memory.length_allocate _) (length_tape_ofTape t)
  have memory : (ofTape t).expandTapeLeft? = do
      let zeroed ← (Memory.allocate (t.capacity * 2)).fill? 0 0 t.capacity
      let newTape ← zeroed.copy? t.capacity (ofTape t).tape t.capacity
      return ⟨newTape, t.capacity * 2, t.cursor + t.capacity, t.firstIndex,
        t.lastIndex + t.capacity⟩ := rfl
  rw [memory, zeroed, Option.bind_eq_bind, Option.bind_some, copied, ofTape_doubleLeft]
  rfl

theorem expandTapeRight?_ofTape (t : Tape) :
    (ofTape t).expandTapeRight? = some (ofTape t.doubleRight) := by
  have copied : (Memory.allocate (t.capacity * 2)).copy? 0 (ofTape t).tape t.capacity =
      some ((ofTape t).tape ++ Memory.allocate t.capacity) := by
    rw [Memory.allocate_double]
    exact Memory.copy?_between [] _ _ _ rfl (Memory.length_allocate _) (length_tape_ofTape t)
  have zeroed : Memory.fill? ((ofTape t).tape ++ Memory.allocate t.capacity) t.capacity 0
      t.capacity = some ((ofTape t).tape ++ List.replicate t.capacity (some 0)) := by
    simpa using Memory.fill?_between (ofTape t).tape (Memory.allocate t.capacity) [] 0
      (length_tape_ofTape t) (Memory.length_allocate _)
  have less := oneLess?_of_pos (Nat.mul_pos t.capacity_pos Nat.two_pos)
  have memory : (ofTape t).expandTapeRight? = do
      let copied ← (Memory.allocate (t.capacity * 2)).copy? 0 (ofTape t).tape t.capacity
      let newTape ← copied.fill? t.capacity 0 t.capacity
      let maxPtr ← oneLess? (t.capacity * 2)
      return ⟨newTape, t.capacity * 2, t.cursor, t.firstIndex, maxPtr⟩ := rfl
  rw [memory, copied, Option.bind_eq_bind, Option.bind_some, zeroed, Option.bind_eq_bind,
    Option.bind_some, less, ofTape_doubleRight]
  rfl

theorem moveLeft?_ofTape (t : Tape) : (ofTape t).moveLeft? = some (ofTape (t.moveLeft 1)) := by
  have moved (grown : Tape) (room : 1 ≤ grown.cursor) :
      (do
        let ptr ← oneLess? grown.cursor
        return { ofTape grown with ptr }) = some (ofTape (grown.moveLeft 1)) := by
    rw [Tape.moveLeft_of_le room, oneLess?_of_pos room]
    rfl
  by_cases first : t.cursor = 0
  · have atEnd : (ofTape t).ptr = (ofTape t).minPtr := first
    have room : 1 ≤ t.doubleLeft.cursor := by
      rw [Tape.cursor_doubleLeft]
      exact Nat.add_pos_right _ t.capacity_pos
    rw [moveLeft?, if_pos atEnd, expandTapeLeft?_ofTape,
      Tape.moveLeft_of_lt (Nat.lt_one_iff.mpr first)]
    exact moved t.doubleLeft room
  · have inside : ¬ (ofTape t).ptr = (ofTape t).minPtr := first
    rw [moveLeft?, if_neg inside]
    exact moved t (Nat.pos_of_ne_zero first)

theorem moveRight?_ofTape (t : Tape) : (ofTape t).moveRight? = some (ofTape (t.moveRight 1)) := by
  have stored : t.cursor < t.capacity := t.cursor_lt
  by_cases last : t.cursor = t.lastIndex
  · have atEnd : (ofTape t).ptr = (ofTape t).maxPtr := last
    have short : t.capacity ≤ t.cursor + 1 := by
      rw [last, Tape.lastIndex]
      omega
    have room : t.doubleRight.cursor + 1 < t.doubleRight.capacity := by
      rw [Tape.cursor_doubleRight, Tape.capacity_doubleRight]
      omega
    rw [moveRight?, if_pos atEnd, expandTapeRight?_ofTape, Tape.moveRight_of_le short,
      Tape.moveRight_of_lt room]
    rfl
  · have inside : ¬ (ofTape t).ptr = (ofTape t).maxPtr := last
    have room : t.cursor + 1 < t.capacity := by
      simp only [Tape.lastIndex] at last
      omega
    rw [moveRight?, if_neg inside, Tape.moveRight_of_lt room]
    rfl

end Buffer

end Brainfuck.Emission
