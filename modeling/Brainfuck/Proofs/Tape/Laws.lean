import Brainfuck.Tape

/-!
Laws of the tape. Moving by a sum is moving by its parts, down to the stored cells, so a long move
grows the tape exactly as short ones do. Growth never changes what a tape shows: the position of the
cursor and the cell at every place stay as they are.
-/

namespace Brainfuck.Tape

theorem eq_of_fields {s t : Tape} (cells : s.cells = t.cells) (cursor : s.cursor = t.cursor)
    (origin : s.origin = t.origin) : s = t := by
  cases s
  cases t
  cases cells
  cases cursor
  cases origin
  rfl

/-- The tape with its cursor at another stored cell. -/
def withCursor (t : Tape) (cursor : Nat) (lt : cursor < t.capacity) : Tape :=
  { t with cursor, cursor_lt := lt }

/-! ### One step of a move -/

theorem moveLeft_of_le {amount : Nat} {t : Tape} (room : amount ≤ t.cursor) :
    moveLeft amount t =
      t.withCursor (t.cursor - amount) (Nat.lt_of_le_of_lt (Nat.sub_le ..) t.cursor_lt) := by
  rw [moveLeft, if_pos room]
  rfl

theorem moveLeft_of_lt {amount : Nat} {t : Tape} (short : t.cursor < amount) :
    moveLeft amount t = moveLeft amount t.doubleLeft := by
  rw [moveLeft, if_neg (Nat.not_le.mpr short)]

theorem moveRight_of_lt {amount : Nat} {t : Tape} (room : t.cursor + amount < t.capacity) :
    moveRight amount t = t.withCursor (t.cursor + amount) room := by
  rw [moveRight, dif_pos room]
  rfl

theorem moveRight_of_le {amount : Nat} {t : Tape} (short : t.capacity ≤ t.cursor + amount) :
    moveRight amount t = moveRight amount t.doubleRight := by
  rw [moveRight, dif_neg (Nat.not_lt.mpr short)]

/-! ### Moving by a sum -/

@[simp] theorem moveLeft_zero (t : Tape) : moveLeft 0 t = t := by
  rw [moveLeft_of_le (Nat.zero_le _)]
  rfl

@[simp] theorem moveRight_zero (t : Tape) : moveRight 0 t = t := by
  rw [moveRight_of_lt t.cursor_lt]
  rfl

/-- Growth to the left does not mind whether the cursor has already moved. -/
theorem doubleLeft_withCursor (t : Tape) (cursor : Nat) (lt : cursor < t.capacity) :
    (t.withCursor cursor lt).doubleLeft =
      t.doubleLeft.withCursor (cursor + t.capacity) (by simp; omega) :=
  rfl

theorem doubleRight_withCursor (t : Tape) (cursor : Nat) (lt : cursor < t.capacity) :
    (t.withCursor cursor lt).doubleRight =
      t.doubleRight.withCursor cursor (by simp; omega) :=
  rfl

theorem moveLeft_add (a b : Nat) (t : Tape) :
    moveLeft (a + b) t = moveLeft b (moveLeft a t) := by
  induction t using moveLeft.induct (a + b) with
  | case1 t room =>
      have first : a ≤ t.cursor := by omega
      have second : b ≤ t.cursor - a := by omega
      rw [moveLeft_of_le room, moveLeft_of_le first, moveLeft_of_le second]
      exact eq_of_fields rfl (Nat.sub_sub ..).symm rfl
  | case2 t short ih =>
      rw [moveLeft_of_lt (Nat.not_le.mp short), ih]
      by_cases first : a ≤ t.cursor
      · -- Only the second part needs growth, and it may as well come before the first.
        have grown : a ≤ t.doubleLeft.cursor := by simp; omega
        rw [moveLeft_of_le first, moveLeft_of_le grown,
          moveLeft_of_lt (t := t.withCursor ..) (show t.cursor - a < b by omega),
          doubleLeft_withCursor]
        congr 1
        exact eq_of_fields rfl (Nat.sub_add_comm first) rfl
      · rw [moveLeft_of_lt (Nat.not_le.mp first)]

theorem moveRight_add (a b : Nat) (t : Tape) :
    moveRight (a + b) t = moveRight b (moveRight a t) := by
  induction t using moveRight.induct (a + b) with
  | case1 t room =>
      have first : t.cursor + a < t.capacity := by omega
      rw [moveRight_of_lt room, moveRight_of_lt first,
        moveRight_of_lt (t := t.withCursor ..) (show t.cursor + a + b < t.capacity by omega)]
      exact eq_of_fields rfl (Nat.add_assoc ..).symm rfl
  | case2 t short ih =>
      rw [moveRight_of_le (Nat.not_lt.mp short), ih]
      by_cases first : t.cursor + a < t.capacity
      · have grown : t.doubleRight.cursor + a < t.doubleRight.capacity := by simp; omega
        rw [moveRight_of_lt first, moveRight_of_lt grown,
          moveRight_of_le (t := t.withCursor ..) (show t.capacity ≤ t.cursor + a + b by omega),
          doubleRight_withCursor]
        rfl
      · rw [moveRight_of_le (Nat.not_lt.mp first)]

/-! ### What growth and moves keep -/

@[simp] theorem position_doubleLeft (t : Tape) : t.doubleLeft.position = t.position := by
  simp only [position, cursor_doubleLeft]
  change (_ : Int) - ((t.origin + t.capacity : Nat) : Int) = _
  omega

@[simp] theorem position_doubleRight (t : Tape) : t.doubleRight.position = t.position :=
  rfl

theorem cellAt_of_index {t : Tape} {place : Int} {index : Nat} (here : t.origin + place = index) :
    t.cellAt place = t.cells[index]?.getD 0 := by
  simp only [cellAt, here, Int.toNat_natCast, Array.getD_eq_getD_getElem?]
  exact if_neg (Int.not_lt.mpr (Int.natCast_nonneg index))

theorem cellAt_of_neg {t : Tape} {place : Int} (outside : t.origin + place < 0) :
    t.cellAt place = 0 :=
  if_pos outside

@[simp] theorem cellAt_doubleLeft (t : Tape) (place : Int) :
    t.doubleLeft.cellAt place = t.cellAt place := by
  have cells : t.doubleLeft.cells = Array.replicate t.capacity 0 ++ t.cells := rfl
  have origin : t.doubleLeft.origin = t.origin + t.capacity := rfl
  by_cases outside : t.origin + place < 0
  · rw [cellAt_of_neg outside]
    by_cases far : t.doubleLeft.origin + place < 0
    · exact cellAt_of_neg far
    · -- The place has become a stored one, in the new half.
      obtain ⟨index, here⟩ := Int.eq_ofNat_of_zero_le (Int.not_lt.mp far)
      have new : index < t.capacity := by omega
      rw [cellAt_of_index here, cells, Array.getElem?_append_left (by simpa using new)]
      simp [new]
  · obtain ⟨index, here⟩ := Int.eq_ofNat_of_zero_le (Int.not_lt.mp outside)
    have shifted : t.doubleLeft.origin + place = ((index + t.capacity : Nat) : Int) := by omega
    rw [cellAt_of_index here, cellAt_of_index shifted, cells, Array.getElem?_append_right (by simp)]
    simp

@[simp] theorem cellAt_doubleRight (t : Tape) (place : Int) :
    t.doubleRight.cellAt place = t.cellAt place := by
  have cells : t.doubleRight.cells = t.cells ++ Array.replicate t.capacity 0 := rfl
  by_cases outside : t.origin + place < 0
  · rw [cellAt_of_neg outside]
    exact cellAt_of_neg outside
  · obtain ⟨index, here⟩ := Int.eq_ofNat_of_zero_le (Int.not_lt.mp outside)
    have same : t.doubleRight.origin + place = index := here
    rw [cellAt_of_index here, cellAt_of_index same, cells, Array.getElem?_append]
    split
    · rfl
    · rename_i beyond
      rw [Array.getElem?_eq_none (Nat.not_lt.mp beyond), Array.getElem?_replicate]
      split <;> rfl

theorem position_moveLeft (amount : Nat) (t : Tape) :
    (moveLeft amount t).position = t.position - amount := by
  induction t using moveLeft.induct amount with
  | case1 t room =>
      rw [moveLeft_of_le room]
      simp only [position, withCursor]
      omega
  | case2 t short ih => rw [moveLeft_of_lt (Nat.not_le.mp short), ih, position_doubleLeft]

theorem position_moveRight (amount : Nat) (t : Tape) :
    (moveRight amount t).position = t.position + amount := by
  induction t using moveRight.induct amount with
  | case1 t room =>
      rw [moveRight_of_lt room]
      simp only [position, withCursor]
      omega
  | case2 t short ih => rw [moveRight_of_le (Nat.not_lt.mp short), ih, position_doubleRight]

theorem cellAt_moveLeft (amount : Nat) (t : Tape) (place : Int) :
    (moveLeft amount t).cellAt place = t.cellAt place := by
  induction t using moveLeft.induct amount with
  | case1 t room =>
      rw [moveLeft_of_le room]
      rfl
  | case2 t short ih => rw [moveLeft_of_lt (Nat.not_le.mp short), ih, cellAt_doubleLeft]

theorem cellAt_moveRight (amount : Nat) (t : Tape) (place : Int) :
    (moveRight amount t).cellAt place = t.cellAt place := by
  induction t using moveRight.induct amount with
  | case1 t room =>
      rw [moveRight_of_lt room]
      rfl
  | case2 t short ih => rw [moveRight_of_le (Nat.not_lt.mp short), ih, cellAt_doubleRight]

/-! ### The current cell -/

theorem value_eq_cellAt (t : Tape) : t.value = t.cellAt t.position := by
  have here : t.origin + t.position = t.cursor := by simp only [position]; omega
  rw [cellAt_of_index here, Array.getElem?_eq_getElem t.cursor_lt]
  rfl

@[simp] theorem position_set (value : UInt8) (t : Tape) : (t.set value).position = t.position :=
  rfl

theorem cellAt_set (value : UInt8) (t : Tape) (place : Int) :
    (t.set value).cellAt place = if place = t.position then value else t.cellAt place := by
  have cells : (t.set value).cells = t.cells.set t.cursor value t.cursor_lt := rfl
  by_cases outside : t.origin + place < 0
  · have elsewhere : place ≠ t.position := by simp only [position]; omega
    rw [if_neg elsewhere, cellAt_of_neg outside]
    exact cellAt_of_neg outside
  · obtain ⟨index, here⟩ := Int.eq_ofNat_of_zero_le (Int.not_lt.mp outside)
    have same : (t.set value).origin + place = index := here
    rw [cellAt_of_index here, cellAt_of_index same, cells, Array.getElem?_set]
    by_cases current : t.cursor = index
    · have found : place = t.position := by simp only [position]; omega
      rw [if_pos current, if_pos found]
      rfl
    · have elsewhere : place ≠ t.position := by simp only [position]; omega
      rw [if_neg current, if_neg elsewhere]

@[simp] theorem value_set (value : UInt8) (t : Tape) : (t.set value).value = value :=
  Array.getElem_set_self t.cursor_lt

@[simp] theorem set_set (first second : UInt8) (t : Tape) :
    (t.set first).set second = t.set second :=
  eq_of_fields (Array.set_set first t.cursor_lt) rfl rfl

/-! ### Sums and differences -/

theorem add_add (a b : UInt32) (t : Tape) : add (a + b) t = add b (add a t) := by
  simp only [add, value_set, set_set, UInt32.toUInt8_add, UInt8.add_assoc]

theorem sub_add (a b : UInt32) (t : Tape) : sub (a + b) t = sub b (sub a t) := by
  simp only [sub, value_set, set_set, UInt32.toUInt8_add, UInt8.sub_eq_add_neg, UInt8.neg_add,
    UInt8.add_assoc]

theorem add_toUInt8_eq_ofNat (cell : UInt8) (amount : UInt32) :
    cell + amount.toUInt8 = .ofNat (cell.toNat + amount.toNat) := by
  apply UInt8.toNat_inj.mp
  simp

theorem sub_toUInt8_eq_ofInt (cell : UInt8) (amount : UInt32) :
    cell - amount.toUInt8 = .ofInt (cell.toNat - amount.toNat) := by
  apply UInt8.toNat_inj.mp
  simp only [UInt8.ofInt, UInt8.toNat_sub, UInt32.toNat_toUInt8, UInt8.toNat_ofNat']
  omega

end Brainfuck.Tape
