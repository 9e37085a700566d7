import Brainfuck.Error

/-!
Byte streams as seen by a program. Every call to a stream gets the stream's next reply, and a read
or a write that was interrupted is made again. An input stream whose replies are used up is at its
end for good; an output stream whose replies to writes are used up accepts everything. Flushes have
replies of their own, with one more that is for every flush behind these.
-/

namespace Brainfuck

/-! ### Input -/

/-- How a read of one byte can end. -/
inductive ReadReply where
  | byte (value : UInt8)
  | endOfInput
  | interrupted
  | failed (why : StreamFailure)
deriving DecidableEq, Repr

/-- A source of bytes: the replies still to come, and the number of bytes read so far. -/
structure InputStream where
  pending : List ReadReply
  bytesRead : Nat := 0
deriving DecidableEq, Repr

namespace InputStream

/-- A stream that delivers some bytes and then ends. -/
def ofBytes (bytes : List UInt8) : InputStream where
  pending := bytes.map .byte

/-- The first reply that is no interruption, with the replies after it. -/
def nextReply : List ReadReply → Except StreamFailure (Option UInt8) × List ReadReply
  | [] => (.ok none, [])
  | .byte value :: rest => (.ok (some value), rest)
  | .endOfInput :: rest => (.ok none, rest)
  | .interrupted :: rest => nextReply rest
  | .failed why :: rest => (.error why, rest)

/-- Reads one byte, or nothing at the end of the input. -/
def read : InputStream → Except StreamFailure (Option UInt8) × InputStream
  | ⟨pending, bytesRead⟩ =>
      match nextReply pending with
      | (.ok (some value), rest) => (.ok (some value), ⟨rest, bytesRead + 1⟩)
      | (result, rest) => (result, ⟨rest, bytesRead⟩)

end InputStream

/-! ### Output -/

/-- How a write of one byte can end. -/
inductive WriteReply where
  | accepted
  | interrupted
  | nothingWritten
  | failed (why : StreamFailure)
deriving DecidableEq, Repr

/-- A sink for bytes: the replies to writes that are still to come, what the next flushes run into
and what every later one runs into, and what has happened so far. -/
structure OutputStream where
  pending : List WriteReply := []
  nextFlushes : List (Option StreamFailure) := []
  flushFailure : Option StreamFailure := none
  written : Array UInt8 := #[]
  flushes : Nat := 0
deriving DecidableEq, Repr

namespace OutputStream

/-- The first reply that is no interruption, with the replies after it. A write that takes no byte
is a failure. -/
def nextReply : List WriteReply → Except StreamFailure Unit × List WriteReply
  | [] => (.ok (), [])
  | .accepted :: rest => (.ok (), rest)
  | .interrupted :: rest => nextReply rest
  | .nothingWritten :: rest => (.error .nothingWritten, rest)
  | .failed why :: rest => (.error why, rest)

/-- Writes one byte. -/
def write (value : UInt8) (stream : OutputStream) : Except StreamFailure Unit × OutputStream :=
  match nextReply stream.pending with
  | (.ok (), rest) =>
      (.ok (), { stream with pending := rest, written := stream.written.push value })
  | (.error why, rest) => (.error why, { stream with pending := rest })

/-- Flushes the stream. A flush that fails has been made all the same. -/
def flush (stream : OutputStream) : Except StreamFailure Unit × OutputStream :=
  let result := match stream.nextFlushes.headD stream.flushFailure with
    | none => .ok ()
    | some why => .error why
  (result, { stream with
    nextFlushes := stream.nextFlushes.tail
    flushes := stream.flushes + 1 })

end OutputStream

end Brainfuck
