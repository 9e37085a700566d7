import Brainfuck.Proofs.Tape.Growth
import Brainfuck.Proofs.Tape.Ideal
import Mathlib.Data.Finset.Max

/-!
How large a tape gets. A doubling is asked for by a place behind one end of the tape, and the last
doubling before it was asked for by a place too, on either side; the two places lie so far apart
that the tape stays in proportion to the range that the cursor has visited (`Asked.wide`). Every
single doubling keeps to this (`Sized.double`), and so does every sequence of operations
(`capacity_le_visited`), however it goes back and forth.
-/

namespace Brainfuck.Tape

/-- The places where the cursor stands before and after each of some operations. Those that a long
move passes lie between two of these. -/
def visited : List Operation → Tape → Finset Int
  | [], t => {t.position}
  | operation :: rest, t => insert t.position (visited rest (operation.apply t))

theorem position_mem_visited (operations : List Operation) (t : Tape) :
    t.position ∈ visited operations t := by
  cases operations with
  | nil => exact Finset.mem_singleton_self _
  | cons operation rest => exact Finset.mem_insert_self ..

/-- The last doubling of a tape that was new with `initial` cells, if there was one, was asked for
by a place between `low` and `high`. There were `half` cells then, and the place lay before or
behind them. -/
inductive Asked (initial : Nat) (low high : Int) (t : Tape) : Prop where
  | never (new : t.capacity = initial)
  | left {half : Nat} (doubled : t.capacity = 2 * half) (moved : half ≤ t.origin)
      (before : (t.origin : Int) - half < -low)
  | right {half : Nat} (doubled : t.capacity = 2 * half) (still : t.origin < half)
      (behind : (half : Int) - t.origin ≤ high)

/-- The tape has a capacity that doublings make from the initial one, and no more of it than places
between `low` and `high` account for. -/
structure Sized (initial : Nat) (low high : Int) (t : Tape) : Prop where
  power : ∃ doublings, t.capacity = initial * 2 ^ doublings
  bound : (t.capacity : Int) ≤ max (2 * (initial : Int)) (4 * (high - low))
  asked : Asked initial low high t

section

variable {initial : Nat} {low high : Int} {t : Tape} {side : Side} {amount : Nat}

theorem sized_blank (pos : 0 < initial) : Sized initial low high (blank initial pos) := by
  have new : (blank initial pos).capacity = initial := Array.size_replicate
  refine ⟨⟨0, by rw [new, Nat.pow_zero, Nat.mul_one]⟩, ?_, .never new⟩
  rw [new]
  omega

/-- Between `low` and `high` there is a place on a side of the tape where no more cells are
stored. -/
def Beyond (low high : Int) (t : Tape) : Side → Prop
  | .left => (t.origin : Int) < -low
  | .right => (t.capacity : Int) - t.origin ≤ high

theorem beyond_of_short (short : Short side amount t)
    (least : low ≤ (move side amount t).position)
    (greatest : (move side amount t).position ≤ high) : Beyond low high t side := by
  cases side with
  | left =>
      rw [move, position_moveLeft, position] at least
      rw [Short, firstIndex] at short
      rw [Beyond]
      omega
  | right =>
      rw [move, position_moveRight, position] at greatest
      rw [Short, lastIndex] at short
      rw [Beyond]
      omega

/-- When a tape is to be doubled again, the place that asks for it and the one that asked for the
last doubling are more than half a capacity apart. -/
theorem Asked.wide (asked : Asked initial low high t) (low_le : low ≤ 0) (le_high : 0 ≤ high)
    (beyond : Beyond low high t side) :
    t.capacity = initial ∨ (t.capacity : Int) < 2 * (high - low) := by
  cases asked with
  | never new => exact .inl new
  | left doubled moved before =>
      right
      cases side <;> rw [Beyond] at beyond <;> omega
  | right doubled still behind =>
      right
      cases side <;> rw [Beyond] at beyond <;> omega

theorem Sized.double (sized : Sized initial low high t) (low_le : low ≤ 0) (le_high : 0 ≤ high)
    (beyond : Beyond low high t side) : Sized initial low high (double side t) := by
  obtain ⟨doublings, power⟩ := sized.power
  have capacity := capacity_double side t
  refine ⟨⟨doublings + 1, ?_⟩, ?_, ?_⟩
  · rw [capacity, power, Nat.pow_succ', Nat.mul_left_comm]
  · rw [capacity]
    rcases Asked.wide sized.asked low_le le_high beyond with new | wide <;> omega
  · cases side with
    | left =>
        have origin : (Tape.double .left t).origin = t.origin + t.capacity := rfl
        rw [Beyond] at beyond
        refine .left capacity ?_ ?_ <;> omega
    | right =>
        have origin : (Tape.double .right t).origin = t.origin := rfl
        have stored : t.origin < t.capacity := t.origin_lt
        rw [Beyond] at beyond
        refine .right capacity ?_ ?_ <;> omega

theorem Sized.iterate_double {n : Nat} (sized : Sized initial low high t) (low_le : low ≤ 0)
    (le_high : 0 ≤ high) (least : low ≤ (move side amount t).position)
    (greatest : (move side amount t).position ≤ high)
    (short : ∀ i < n, Short side amount ((Tape.double side)^[i] t)) :
    Sized initial low high ((Tape.double side)^[n] t) := by
  induction n with
  | zero => exact sized
  | succ n ih =>
      have before : ∀ i < n, Short side amount ((Tape.double side)^[i] t) :=
        fun i less => short i (Nat.lt_succ_of_lt less)
      rw [move_iterate_double before] at least greatest
      rw [Function.iterate_succ_apply']
      exact (ih before).double low_le le_high
        (beyond_of_short (short n n.lt_succ_self) least greatest)

/-- Capacity and origin decide. -/
theorem Sized.of_same {t' : Tape} (sized : Sized initial low high t)
    (capacity : t'.capacity = t.capacity) (origin : t'.origin = t.origin) :
    Sized initial low high t' := by
  refine ⟨capacity ▸ sized.power, capacity ▸ sized.bound, ?_⟩
  cases sized.asked with
  | never new => exact .never (capacity.trans new)
  | left doubled moved before =>
      exact .left (capacity.trans doubled) (origin ▸ moved) (origin ▸ before)
  | right doubled still behind =>
      exact .right (capacity.trans doubled) (origin ▸ still) (origin ▸ behind)

theorem Sized.move (sized : Sized initial low high t) (low_le : low ≤ 0) (le_high : 0 ≤ high)
    (side : Side) (amount : Nat) (least : low ≤ (move side amount t).position)
    (greatest : (move side amount t).position ≤ high) :
    Sized initial low high (move side amount t) := by
  obtain ⟨n, -, loop⟩ := exists_doublings side amount t
  obtain ⟨lt, moved⟩ := loop.move_eq
  rw [moved]
  exact (sized.iterate_double low_le le_high least greatest loop.before).of_same rfl rfl

theorem Sized.set (sized : Sized initial low high t) (value : UInt8) :
    Sized initial low high (t.set value) :=
  sized.of_same (Array.size_set t.cursor_lt) rfl

/-- No operation makes a tape larger than the places account for that the cursor has visited. -/
theorem Sized.apply (sized : Sized initial low high t) (low_le : low ≤ 0) (le_high : 0 ≤ high)
    (operation : Operation) (least : low ≤ (operation.apply t).position)
    (greatest : (operation.apply t).position ≤ high) :
    Sized initial low high (operation.apply t) := by
  cases operation with
  | moveLeft amount => exact sized.move low_le le_high .left amount least greatest
  | moveRight amount => exact sized.move low_le le_high .right amount least greatest
  | add amount => exact sized.set _
  | sub amount => exact sized.set _
  | set value => exact sized.set value

theorem Sized.applyAll (sized : Sized initial low high t) (low_le : low ≤ 0) (le_high : 0 ≤ high)
    (operations : List Operation)
    (within : ∀ place ∈ visited operations t, low ≤ place ∧ place ≤ high) :
    Sized initial low high (applyAll operations t) := by
  induction operations generalizing t with
  | nil => exact sized
  | cons operation rest ih =>
      have later : ∀ place ∈ visited rest (operation.apply t), low ≤ place ∧ place ≤ high :=
        fun place member => within place (Finset.mem_insert_of_mem member)
      obtain ⟨least, greatest⟩ := later _ (position_mem_visited rest _)
      exact ih (sized.apply low_le le_high operation least greatest) later

end

/-- After any operations on a tape that was new, the capacity is the initial one, doubled some
number of times. It is no more than twice the initial one, or no more than four times the range from
the least to the greatest place that the cursor has visited. -/
theorem capacity_le_visited (initial : Nat) (pos : 0 < initial) (operations : List Operation) :
    let t := applyAll operations (blank initial pos)
    ∃ low high : Int, IsLeast (visited operations (blank initial pos)) low ∧
      IsGreatest (visited operations (blank initial pos)) high ∧ low ≤ 0 ∧ 0 ≤ high ∧
      (∃ doublings, t.capacity = initial * 2 ^ doublings) ∧
      (t.capacity : Int) ≤ max (2 * (initial : Int)) (4 * (high - low)) := by
  intro t
  have start : (0 : Int) ∈ visited operations (blank initial pos) := position_mem_visited _ _
  have least := Finset.isLeast_min' (visited operations (blank initial pos)) ⟨0, start⟩
  have greatest := Finset.isGreatest_max' (visited operations (blank initial pos)) ⟨0, start⟩
  have sized := (sized_blank pos).applyAll (least.2 start) (greatest.2 start) operations
    fun place member => ⟨least.2 member, greatest.2 member⟩
  exact ⟨_, _, least, greatest, least.2 start, greatest.2 start, sized.power, sized.bound⟩

/-- The theorem at a tape of one cell, with a walk that goes to and fro and is doubled on both
sides. -/
theorem capacity_le_visited_to_and_fro :
    (0 < 1) ∧
      let operations := [.moveLeft 1, .moveRight 4, .set 7, .moveLeft 9, .moveRight 20]
      let t := applyAll operations (blank 1 (by decide))
      ∃ low high : Int, IsLeast (visited operations (blank 1 (by decide))) low ∧
        IsGreatest (visited operations (blank 1 (by decide))) high ∧ low ≤ 0 ∧ 0 ≤ high ∧
        (∃ doublings, t.capacity = 1 * 2 ^ doublings) ∧
        (t.capacity : Int) ≤ max (2 * ((1 : Nat) : Int)) (4 * (high - low)) :=
  ⟨by decide, capacity_le_visited 1 (by decide)
    [.moveLeft 1, .moveRight 4, .set 7, .moveLeft 9, .moveRight 20]⟩

end Brainfuck.Tape
