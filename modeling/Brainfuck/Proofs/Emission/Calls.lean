import Brainfuck.Proofs.Emission.Buffer
import Brainfuck.Proofs.Tape.Growth
import Brainfuck.Proofs.Tape.Ideal
import Mathlib.Data.List.Forall2

/-!
The tape class beside the tape. An operation on a tape is written out as calls on an object of the
class: a move as that many moves by one, a sum or a difference as an assignment or, if it is by one,
as a unit method. A call takes the object of a tape to the object of a tape (`exists_run?_ofTape`),
so the object stays in order from call to call, and after all calls of an operation it shows the
tape that the operation leaves (`calls_follow_operations`).
-/

namespace Brainfuck.Emission.Buffer

/-! ### Calls -/

/-- What a program does to an object: it calls a method, or assigns to the current cell. -/
inductive Call where
  | moveLeft
  | moveRight
  | increment
  | decrement
  | add (amount : Nat)
  | subtract (amount : Nat)
  | assign (value : UInt8)
deriving DecidableEq, Repr

/-- The effect of a call. -/
def Call.run? : Call → Buffer → Option Buffer
  | .moveLeft => moveLeft?
  | .moveRight => moveRight?
  | .increment => increment?
  | .decrement => decrement?
  | .add amount => add? amount
  | .subtract amount => subtract? amount
  | .assign value => write? value

/-- Calls in order. Coming upon something undefined ends them. -/
def runAll? (calls : List Call) (b : Buffer) : Option Buffer :=
  calls.foldlM (fun b call => call.run? b) b

/-- The calls that an operation on a tape is written out as. -/
inductive WrittenOut : Tape.Operation → List Call → Prop where
  | moveLeft (amount : Nat) : WrittenOut (.moveLeft amount) (List.replicate amount .moveLeft)
  | moveRight (amount : Nat) : WrittenOut (.moveRight amount) (List.replicate amount .moveRight)
  | increment : WrittenOut (.add 1) [.increment]
  | add (amount : UInt32) : WrittenOut (.add amount) [.add amount.toNat]
  | decrement : WrittenOut (.sub 1) [.decrement]
  | subtract (amount : UInt32) : WrittenOut (.sub amount) [.subtract amount.toNat]
  | assign (value : UInt8) : WrittenOut (.set value) [.assign value]

/-! ### What holds between calls -/

/-- The indices of an object belong together, its block has its capacity, and a value has been
written to every byte of the block. -/
structure InOrder (b : Buffer) : Prop where
  minPtr : b.minPtr = 0
  minPtr_le : b.minPtr ≤ b.ptr
  le_maxPtr : b.ptr ≤ b.maxPtr
  maxPtr : b.maxPtr = b.capacity - 1
  length : b.tape.length = b.capacity
  initialized : ∀ cell ∈ b.tape, ∃ value, cell = some value

/-- An object has the cursor, the capacity and the cells of a tape, and reads as the tape does. -/
structure Shows (b : Buffer) (t : Tape) : Prop where
  ptr : b.ptr = t.cursor
  capacity : b.capacity = t.capacity
  cells : b.tape = t.cells.toList.map some
  read : b.read? = some t.value

theorem inOrder_ofTape (t : Tape) : (ofTape t).InOrder where
  minPtr := rfl
  minPtr_le := Nat.zero_le _
  le_maxPtr := Nat.le_sub_one_of_lt t.cursor_lt
  maxPtr := rfl
  length := length_tape_ofTape t
  initialized := by
    intro cell member
    obtain ⟨value, -, same⟩ := List.mem_map.mp member
    exact ⟨value, same.symm⟩

theorem shows_ofTape (t : Tape) : (ofTape t).Shows t :=
  ⟨rfl, rfl, rfl, read?_ofTape t⟩

/-- Every call on the object of a tape is defined, and leaves the object of a tape. -/
theorem exists_run?_ofTape (call : Call) (t : Tape) :
    ∃ t', call.run? (ofTape t) = some (ofTape t') := by
  cases call with
  | moveLeft => exact ⟨_, moveLeft?_ofTape t⟩
  | moveRight => exact ⟨_, moveRight?_ofTape t⟩
  | increment => exact ⟨_, increment?_ofTape t⟩
  | decrement => exact ⟨_, decrement?_ofTape t⟩
  | add amount =>
      rw [Call.run?, add?, read?_ofTape]
      exact ⟨_, write?_ofTape _ t⟩
  | subtract amount =>
      rw [Call.run?, subtract?, read?_ofTape]
      exact ⟨_, write?_ofTape _ t⟩
  | assign value => exact ⟨_, write?_ofTape value t⟩

theorem exists_runAll?_ofTape (calls : List Call) (t : Tape) :
    ∃ t', runAll? calls (ofTape t) = some (ofTape t') := by
  induction calls generalizing t with
  | nil => exact ⟨t, rfl⟩
  | cons call rest ih =>
      obtain ⟨next, first⟩ := exists_run?_ofTape call t
      obtain ⟨last, others⟩ := ih next
      refine ⟨last, ?_⟩
      rw [runAll?, List.foldlM_cons, first]
      exact others

/-! ### Operations -/

theorem runAll?_append (first rest : List Call) (b : Buffer) :
    runAll? (first ++ rest) b = (runAll? first b).bind (runAll? rest) :=
  List.foldlM_append

theorem runAll?_singleton (call : Call) (b : Buffer) : runAll? [call] b = call.run? b := by
  rw [runAll?, List.foldlM_cons]
  exact bind_pure _

/-- A call that does to objects what `f` does to tapes, made several times. -/
theorem runAll?_replicate {call : Call} {f : Tape → Tape}
    (one : ∀ t, call.run? (ofTape t) = some (ofTape (f t))) (n : Nat) (t : Tape) :
    runAll? (List.replicate n call) (ofTape t) = some (ofTape (f^[n] t)) := by
  induction n generalizing t with
  | zero => rfl
  | succ n ih =>
      rw [List.replicate_succ, runAll?, List.foldlM_cons, one, Function.iterate_succ_apply]
      exact ih (f t)

/-- The calls of an operation do to the object of a tape what the operation does to the tape. -/
theorem WrittenOut.runAll? {operation : Tape.Operation} {calls : List Call}
    (written : WrittenOut operation calls) (t : Tape) :
    runAll? calls (ofTape t) = some (ofTape (operation.apply t)) := by
  cases written with
  | moveLeft amount =>
      have one (t : Tape) : Call.run? .moveLeft (ofTape t) = some (ofTape (t.move .left 1)) :=
        moveLeft?_ofTape t
      rw [runAll?_replicate one, ← Tape.move_eq_iterate]
      rfl
  | moveRight amount =>
      have one (t : Tape) : Call.run? .moveRight (ofTape t) = some (ofTape (t.move .right 1)) :=
        moveRight?_ofTape t
      rw [runAll?_replicate one, ← Tape.move_eq_iterate]
      rfl
  | increment => exact (runAll?_singleton ..).trans (increment?_ofTape t)
  | add amount => exact (runAll?_singleton ..).trans (add?_ofTape amount t)
  | decrement => exact (runAll?_singleton ..).trans (decrement?_ofTape t)
  | subtract amount => exact (runAll?_singleton ..).trans (subtract?_ofTape amount t)
  | assign value => exact (runAll?_singleton ..).trans (write?_ofTape value t)

theorem runAll?_flatten {operations : List Tape.Operation} {calls : List (List Call)}
    (written : List.Forall₂ WrittenOut operations calls) (t : Tape) :
    runAll? calls.flatten (ofTape t) = some (ofTape (Tape.applyAll operations t)) := by
  induction written generalizing t with
  | nil => rfl
  | cons first others ih =>
      rw [List.flatten_cons, runAll?_append, first.runAll? t]
      exact ih _

/-- A new object and a new tape of the same size go through any operations in step. After every one
of them the calls so far have been defined, and the object is in order and shows the tape. The
object is also in order between any two calls, so no byte is ever read that nothing was written
to. -/
theorem calls_follow_operations (capacity : Nat) (pos : 0 < capacity)
    (operations : List Tape.Operation) (calls : List (List Call))
    (written : List.Forall₂ WrittenOut operations calls) :
    ∃ new, construct? capacity = some new ∧
      (∀ n, ∃ b, runAll? (calls.take n).flatten new = some b ∧ b.InOrder ∧
        b.Shows (Tape.applyAll (operations.take n) (.blank capacity pos))) ∧
      ∀ m, ∃ b, runAll? (calls.flatten.take m) new = some b ∧ b.InOrder := by
  refine ⟨_, construct?_eq capacity pos, ?_, ?_⟩
  · intro n
    exact ⟨_, runAll?_flatten (List.forall₂_take n written) _, inOrder_ofTape _, shows_ofTape _⟩
  · intro m
    obtain ⟨t, run⟩ := exists_runAll?_ofTape (calls.flatten.take m) (.blank capacity pos)
    exact ⟨_, run, inOrder_ofTape t⟩

/-- The theorem at a tape of two cells that grows twice to the left and then to the right, with
every kind of call. -/
theorem calls_follow_operations_two_cells :
    let operations := [.add 300, .moveLeft 3, .sub 1, .moveRight 9, .set 7, .add 1, .sub 2]
    let calls := [[.add 300], [.moveLeft, .moveLeft, .moveLeft], [.decrement],
      List.replicate 9 .moveRight, [.assign 7], [.increment], [.subtract 2]]
    (0 < 2 ∧ List.Forall₂ WrittenOut operations calls) ∧
      ∃ new, construct? 2 = some new ∧
        (∀ n, ∃ b, runAll? (calls.take n).flatten new = some b ∧ b.InOrder ∧
          b.Shows (Tape.applyAll (operations.take n) (.blank 2 (by decide)))) ∧
        ∀ m, ∃ b, runAll? (calls.flatten.take m) new = some b ∧ b.InOrder := by
  intro operations calls
  have written : List.Forall₂ WrittenOut operations calls :=
    .cons (.add 300) <| .cons (.moveLeft 3) <| .cons .decrement <| .cons (.moveRight 9) <|
      .cons (.assign 7) <| .cons .increment <| .cons (.subtract 2) .nil
  exact ⟨⟨by decide, written⟩, calls_follow_operations 2 (by decide) operations calls written⟩

end Brainfuck.Emission.Buffer
