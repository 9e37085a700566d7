import Brainfuck.Proofs.Tape.Laws
import Mathlib.Algebra.Group.Nat.Defs
import Mathlib.Data.Nat.Find
import Mathlib.Logic.Function.Iterate
import Mathlib.Order.Bounds.Basic

/-!
How far a move grows a tape. Before the cursor moves, a loop doubles the tape on the side of the
move as long as there is not enough room. After any number of doublings the old cells stand together
and in order at the far end of the zeros (`cells_iterate_double`), so what the loop tests can be
computed from the tape it starts with (`short_iterate_double_iff`). It makes the least number of
doublings that is enough, and what comes out is what single steps would have made (`move_in_steps`).
-/

namespace Brainfuck.Tape

/-! ### Moves and doublings by their side -/

/-- A move to a side. -/
def move : Side → Nat → Tape → Tape
  | .left => moveLeft
  | .right => moveRight

/-- A doubling on a side. -/
def double : Side → Tape → Tape
  | .left => doubleLeft
  | .right => doubleRight

/-- The test of the loop before a move: the move would lead out of the stored cells. -/
def Short : Side → Nat → Tape → Prop
  | .left, amount, t => t.cursor < t.firstIndex + amount
  | .right, amount, t => t.lastIndex < t.cursor + amount

/-- Where a move leads to, when there is room. -/
def landing : Side → Nat → Tape → Nat
  | .left, amount, t => t.cursor - amount
  | .right, amount, t => t.cursor + amount

/-- Cells with zeros added on a side. -/
def padded : Side → Nat → Array UInt8 → Array UInt8
  | .left, zeros, cells => Array.replicate zeros 0 ++ cells
  | .right, zeros, cells => cells ++ Array.replicate zeros 0

/-- A number of doublings makes enough room for a move. -/
def Enough : Side → Nat → Tape → Nat → Prop
  | .left, amount, t, doublings => amount ≤ t.cursor + t.capacity * (2 ^ doublings - 1)
  | .right, amount, t, doublings => t.cursor + amount < t.capacity * 2 ^ doublings

variable {side : Side} {amount n : Nat} {t : Tape}

theorem move_of_short (short : Short side amount t) :
    move side amount t = move side amount (double side t) := by
  cases side with
  | left =>
      have less : t.cursor < amount := by simpa [Short, firstIndex] using short
      exact moveLeft_of_lt less
  | right =>
      have more : t.capacity ≤ t.cursor + amount := by
        simp only [Short, lastIndex] at short
        omega
      exact moveRight_of_le more

theorem move_of_not_short (room : ¬ Short side amount t) :
    ∃ lt, move side amount t = t.withCursor (landing side amount t) lt := by
  have stored : t.cursor < t.capacity := t.cursor_lt
  cases side with
  | left =>
      have le : amount ≤ t.cursor := by simpa [Short, firstIndex] using room
      exact ⟨_, moveLeft_of_le le⟩
  | right =>
      have lt : t.cursor + amount < t.capacity := by
        simp only [Short, lastIndex] at room
        omega
      exact ⟨lt, moveRight_of_lt lt⟩

theorem move_add (side : Side) (a b : Nat) (t : Tape) :
    move side (a + b) t = move side b (move side a t) := by
  cases side with
  | left => exact moveLeft_add a b t
  | right => exact moveRight_add a b t

/-- A long move is as many moves by one. -/
theorem move_eq_iterate (side : Side) (amount : Nat) (t : Tape) :
    move side amount t = (move side 1)^[amount] t := by
  induction amount generalizing t with
  | zero =>
      cases side with
      | left => exact moveLeft_zero t
      | right => exact moveRight_zero t
  | succ amount ih => rw [Nat.add_comm, move_add, ih, Nat.add_comm, Function.iterate_succ_apply]

/-! ### Many doublings -/

@[simp] theorem capacity_double (side : Side) (t : Tape) :
    (double side t).capacity = 2 * t.capacity := by
  cases side with
  | left => exact capacity_doubleLeft t
  | right => exact capacity_doubleRight t

theorem capacity_iterate_double (side : Side) (n : Nat) (t : Tape) :
    ((double side)^[n] t).capacity = t.capacity * 2 ^ n := by
  induction n with
  | zero => simp
  | succ n ih =>
      rw [Function.iterate_succ_apply', capacity_double, ih, Nat.pow_succ', Nat.mul_left_comm]

/-- One doubling more adds as many zeros as there are cells by then. -/
theorem zeros_succ (capacity n : Nat) :
    capacity * (2 ^ (n + 1) - 1) = capacity * 2 ^ n + capacity * (2 ^ n - 1) := by
  rw [← Nat.mul_add]
  congr 1
  have := Nat.one_le_two_pow (n := n)
  omega

/-- Doublings add zeros on their side only, and keep the old cells in order. -/
theorem cells_iterate_double (side : Side) (n : Nat) (t : Tape) :
    ((double side)^[n] t).cells = padded side (t.capacity * (2 ^ n - 1)) t.cells := by
  induction n with
  | zero => cases side <;> simp [padded]
  | succ n ih =>
      have size := capacity_iterate_double side n t
      rw [Function.iterate_succ_apply']
      cases side with
      | left =>
          change Array.replicate ((double .left)^[n] t).capacity 0 ++ _ = _
          rw [size, ih, zeros_succ, padded, padded, ← Array.append_assoc,
            Array.replicate_append_replicate]
      | right =>
          change _ ++ Array.replicate ((double .right)^[n] t).capacity 0 = _
          rw [size, ih, zeros_succ, padded, padded, Array.append_assoc,
            Array.replicate_append_replicate, Nat.add_comm]

theorem cursor_iterate_doubleLeft (n : Nat) (t : Tape) :
    ((double .left)^[n] t).cursor = t.cursor + t.capacity * (2 ^ n - 1) := by
  induction n with
  | zero => simp
  | succ n ih =>
      rw [Function.iterate_succ_apply', double, cursor_doubleLeft, ← double, ih,
        capacity_iterate_double, zeros_succ]
      omega

theorem cursor_iterate_doubleRight (n : Nat) (t : Tape) :
    ((double .right)^[n] t).cursor = t.cursor := by
  induction n with
  | zero => rfl
  | succ n ih => rw [Function.iterate_succ_apply', double, cursor_doubleRight, ← double, ih]

/-! ### The loop before a move -/

/-- A loop with this test and this body, begun at `t`, goes through its body `passes` many times:
the test holds before each of them, and no longer after the last one. -/
structure Repeats (test : Tape → Prop) (body : Tape → Tape) (t : Tape) (passes : Nat) : Prop where
  before : ∀ i < passes, test (body^[i] t)
  after : ¬ test (body^[passes] t)

theorem short_iterate_double_iff :
    Short side amount ((double side)^[n] t) ↔ ¬ Enough side amount t n := by
  cases side with
  | left =>
      rw [Short, cursor_iterate_doubleLeft, firstIndex, Enough]
      omega
  | right =>
      have pos := ((double .right)^[n] t).capacity_pos
      rw [Short, cursor_iterate_doubleRight, lastIndex, Enough, ← capacity_iterate_double .right]
      omega

theorem exists_enough (side : Side) (amount : Nat) (t : Tape) : ∃ n, Enough side amount t n := by
  have pos := t.capacity_pos
  cases side with
  | left =>
      have large : amount < 2 ^ amount := Nat.lt_two_pow_self
      have grown := Nat.le_mul_of_pos_left (2 ^ amount - 1) pos
      refine ⟨amount, ?_⟩
      rw [Enough]
      omega
  | right =>
      have large : t.cursor + amount < 2 ^ (t.cursor + amount) := Nat.lt_two_pow_self
      exact ⟨_, large.trans_le (Nat.le_mul_of_pos_left _ pos)⟩

/-- The loop makes as many doublings as are enough, and no more. -/
theorem exists_doublings (side : Side) (amount : Nat) (t : Tape) :
    ∃ n, IsLeast {j | Enough side amount t j} n ∧
      Repeats (Short side amount) (double side) t n := by
  classical
  have enough := exists_enough side amount t
  refine ⟨Nat.find enough, ⟨Nat.find_spec enough, fun _ => Nat.find_min' enough⟩, ?_, ?_⟩
  · intro i less
    exact short_iterate_double_iff.mpr (Nat.find_min enough less)
  · rw [short_iterate_double_iff]
    exact not_not_intro (Nat.find_spec enough)

/-- A move is a move on the tape that the doublings leave. -/
theorem move_iterate_double (short : ∀ i < n, Short side amount ((double side)^[i] t)) :
    move side amount t = move side amount ((double side)^[n] t) := by
  induction n with
  | zero => rfl
  | succ n ih =>
      rw [ih fun i less => short i (Nat.lt_succ_of_lt less), move_of_short (short n n.lt_succ_self),
        Function.iterate_succ_apply']

theorem Repeats.move_eq (loop : Repeats (Short side amount) (double side) t n) :
    ∃ lt, move side amount t =
      ((double side)^[n] t).withCursor (landing side amount ((double side)^[n] t)) lt := by
  rw [move_iterate_double loop.before]
  exact move_of_not_short loop.after

/-- A long move leaves exactly the tape that as many moves by one leave. Its loop ends, after the
least number of doublings that is enough; after every one of them there are zeros on the side of the
move alone, and all old cells in order behind them. Then the cursor moves, and nothing else
changes. -/
theorem move_in_steps (side : Side) (amount : Nat) (t : Tape) :
    move side amount t = (move side 1)^[amount] t ∧
      ∃ doublings, IsLeast {j | Enough side amount t j} doublings ∧
        Repeats (Short side amount) (double side) t doublings ∧
        (∀ i, ((double side)^[i] t).cells = padded side (t.capacity * (2 ^ i - 1)) t.cells) ∧
        (∃ lt, move side amount t = ((double side)^[doublings] t).withCursor
          (landing side amount ((double side)^[doublings] t)) lt) ∧
        (move side amount t).capacity = t.capacity * 2 ^ doublings := by
  obtain ⟨doublings, least, loop⟩ := exists_doublings side amount t
  obtain ⟨lt, moved⟩ := loop.move_eq
  have capacity : (move side amount t).capacity = t.capacity * 2 ^ doublings := by
    rw [moved, ← capacity_iterate_double side]
    rfl
  exact ⟨move_eq_iterate side amount t, doublings, least, loop,
    fun i => cells_iterate_double side i t, ⟨lt, moved⟩, capacity⟩

end Brainfuck.Tape
