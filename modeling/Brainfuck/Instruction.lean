import Brainfuck.Span

/-!
Symbols and instructions. The language has eight symbols. Four of them, the actions, add up when
they are repeated, so an instruction made from an action carries a count; the other four always
stand for one symbol.
-/

namespace Brainfuck

/-- The symbols whose repetition is one larger action: two moves and two changes of the cell. -/
inductive Action where
  | right
  | left
  | add
  | sub
deriving DecidableEq, Repr

/-- The eight symbols of the language. -/
inductive Symbol where
  | act (action : Action)
  | output
  | input
  | loopStart
  | loopEnd
deriving DecidableEq, Repr

namespace Symbol

/-- The character that writes a symbol. -/
def char : Symbol → Char
  | .act .right => '>'
  | .act .left => '<'
  | .act .add => '+'
  | .act .sub => '-'
  | .output => '.'
  | .input => ','
  | .loopStart => '['
  | .loopEnd => ']'

/-- The symbol that a character writes. Every character outside the eight is commentary. -/
def ofChar? : Char → Option Symbol
  | '>' => some (.act .right)
  | '<' => some (.act .left)
  | '+' => some (.act .add)
  | '-' => some (.act .sub)
  | '.' => some .output
  | ',' => some .input
  | '[' => some .loopStart
  | ']' => some .loopEnd
  | _ => none

@[simp] theorem ofChar?_char (s : Symbol) : ofChar? s.char = some s := by
  cases s with
  | act a => cases a <;> rfl
  | _ => rfl

/-- Whether a symbol is an action, so that repeating it adds up. -/
def isAction : Symbol → Bool
  | .act _ => true
  | _ => false

end Symbol

/-- One instruction of a program, with the place it came from. -/
inductive Instruction where
  | act (action : Action) (count : UInt32) (span : Span)
  | output (span : Span)
  | input (span : Span)
  | loopStart (span : Span)
  | loopEnd (span : Span)
deriving DecidableEq, Repr

namespace Instruction

/-- The instruction for `count` repetitions of a symbol. Only actions are ever counted: for the
other symbols the count says nothing. -/
def ofSymbol (symbol : Symbol) (count : UInt32) (span : Span) : Instruction :=
  match symbol with
  | .act action => .act action count span
  | .output => .output span
  | .input => .input span
  | .loopStart => .loopStart span
  | .loopEnd => .loopEnd span

/-- The instruction for one symbol at a byte offset. -/
def unit (symbol : Symbol) (offset : Nat) : Instruction :=
  ofSymbol symbol 1 (.single offset)

/-- The symbol that an instruction repeats. -/
def symbol : Instruction → Symbol
  | .act action _ _ => .act action
  | .output _ => .output
  | .input _ => .input
  | .loopStart _ => .loopStart
  | .loopEnd _ => .loopEnd

/-- How often the symbol is repeated: once, unless the instruction is counted. -/
def count : Instruction → UInt32
  | .act _ count _ => count
  | _ => 1

/-- The span of the symbols that an instruction stands for. -/
def span : Instruction → Span
  | .act _ _ span | .output span | .input span | .loopStart span | .loopEnd span => span

/-- Whether an instruction is an action, so that neighbouring ones may become one. -/
def isAction (i : Instruction) : Bool :=
  i.symbol.isAction

@[simp] theorem symbol_ofSymbol (s : Symbol) (n : UInt32) (p : Span) :
    (ofSymbol s n p).symbol = s := by
  cases s <;> rfl

@[simp] theorem span_ofSymbol (s : Symbol) (n : UInt32) (p : Span) :
    (ofSymbol s n p).span = p := by
  cases s <;> rfl

/-- Symbol, count and span are all there is to an instruction. -/
theorem ofSymbol_symbol_count_span (i : Instruction) : ofSymbol i.symbol i.count i.span = i := by
  cases i <;> rfl

end Instruction

end Brainfuck
