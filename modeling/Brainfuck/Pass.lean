import Brainfuck.RunLength
import Brainfuck.Text.Blank

/-!
Passes over a program and the texts that select them. `select` reads a selection: `none`, `all`, or
names between commas. `applyAll` runs passes in order and keeps account of what each one did.
-/

namespace Brainfuck

/-- A named transformation of programs that may refuse a program. -/
structure Pass where
  name : String
  run : List Instruction → Except Error (List Instruction)

namespace Pass

/-- Merges runs of equal actions. -/
def collapseRuns : Pass :=
  ⟨"collapse-runs", RunLength.collapse⟩

/-- The passes that a selection can name. -/
def registered : List Pass :=
  [collapseRuns]

/-- The passes that `all` stands for, in order. -/
def defaults : List Pass :=
  [collapseRuns]

/-- The registered pass that one piece of a selection names, blanks around the name aside. A piece
that names none is reported as it was written. -/
def ofPiece (piece : List Char) : Except Error Pass :=
  let name := String.ofList (Text.trimBlanks piece)
  match registered.find? (·.name == name) with
  | some pass => .ok pass
  | none => .error (.unknownPass (String.ofList piece))

/-- The passes that a text selects. The words `none` and `all` count only as the whole text. -/
def select (text : String) : Except Error (List Pass) :=
  if text = "none" then .ok []
  else if text = "all" then .ok defaults
  else (text.toList.splitOn ',').mapM ofPiece

/-- What one pass did to the length of a program. -/
structure Effect where
  pass : String
  before : Nat
  after : Nat
deriving DecidableEq, Repr

/-- Runs passes in order, and says what each pass did that came to its end. -/
def applyAll : List Pass → List Instruction → List Effect × Except Error (List Instruction)
  | [], program => ([], .ok program)
  | pass :: rest, program =>
      match pass.run program with
      | .error e => ([], .error e)
      | .ok shorter =>
          let (effects, result) := applyAll rest shorter
          (⟨pass.name, program.length, shorter.length⟩ :: effects, result)

/-- The program after all passes, in order. -/
def runAll (passes : List Pass) (program : List Instruction) : Except Error (List Instruction) :=
  (applyAll passes program).2

end Pass

end Brainfuck
