/-!
Places in a source. A span names a first and a last byte, both included. An instruction read from
one symbol carries a span of that byte alone, and an instruction made from several carries the
least span over all of theirs.
-/

namespace Brainfuck

/-- The byte offsets of the first and of the last symbol that an instruction stands for. -/
structure Span where
  start : Nat
  stop : Nat
deriving DecidableEq, Repr

namespace Span

/-- The span of the one byte at `offset`. -/
def single (offset : Nat) : Span :=
  ⟨offset, offset⟩

/-- The least span that covers both. -/
def cover (a b : Span) : Span :=
  ⟨min a.start b.start, max a.stop b.stop⟩

end Span

end Brainfuck
