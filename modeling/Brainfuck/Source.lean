import Brainfuck.Instruction

/-!
Reading a source. `parse` scans bytes, so a source need not be valid text and offsets count bytes;
`strip` selects the same symbols from the characters of a text. Neither can fail: whether the loop
brackets match is decided later, by whoever has to follow them.
-/

namespace Brainfuck.Source

/-- The symbol that a byte writes. Bytes above the ASCII range write none. -/
def symbolOfByte? (b : UInt8) : Option Symbol :=
  Symbol.ofChar? (Char.ofUInt8 b)

/-- One instruction for each byte that writes a symbol, in order, at that byte's offset. -/
def parse (bytes : List UInt8) : List Instruction :=
  bytes.zipIdx.filterMap fun (b, offset) => (symbolOfByte? b).map (Instruction.unit · offset)

/-- The characters of a text that write a symbol. -/
def strip (text : String) : String :=
  String.ofList (text.toList.filter fun c => (Symbol.ofChar? c).isSome)

/-- The bytes that write a text. -/
def ofText (text : String) : List UInt8 :=
  text.toUTF8.toList

end Brainfuck.Source
