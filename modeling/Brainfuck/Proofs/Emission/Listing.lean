import Brainfuck.Emission.Layout
import Brainfuck.Proofs.Emission.Reading
import Brainfuck.Proofs.Fallible
import Brainfuck.Proofs.Text.Lines

/-!
What a listing writes. Its open loops are those of a scan for matching brackets, and each
instruction adds one line. The statement in it depends on the instruction alone, and the spaces
before it on the indentation width and the depth alone (`toList_statements`). A line reads as the
piece of a body that its instruction asks for, so all lines together read as a body of the shape of
the program's tree (`read?_statements`).
-/

namespace Brainfuck.Emission

/-- The body of a tree. -/
def treeBody (tree : LoopTree) : Body :=
  tree.map commandStatement (fun _ => ()) (fun _ => ())

/-- The piece of a body that an instruction asks for. -/
def linePiece (instruction : Instruction) : Piece Statement Unit Unit :=
  instruction.piece.map commandStatement (fun _ => ()) (fun _ => ())

theorem pieces_treeBody (tree : LoopTree) :
    (treeBody tree).pieces = tree.instructions.map linePiece := by
  rw [treeBody, Nest.pieces_map, ← LoopTree.map_piece_instructions, List.map_map]
  rfl

/-! ### One line -/

theorem ne_of_read? {text other : List Char} {statement : Statement}
    (read : Statement.read? text = some statement) (unread : Statement.read? other = none) :
    text ≠ other := by
  rintro rfl
  rw [unread] at read
  cases read

theorem readLine?_statement {text : String} {statement : Statement}
    (read : Statement.read? text.toList = some statement) :
    readLine? text = some (.leaf statement) := by
  have noMargin : text.toList.dropWhile (· == ' ') = text.toList := by
    cases split : text.toList with
    | nil => rfl
    | cons c tail =>
        have noSpace : c ≠ ' ' := by
          rintro rfl
          have unread : Statement.read? (' ' :: tail) = none := rfl
          exact ne_of_read? read unread split
        exact List.dropWhile_cons_of_neg (by simpa using noSpace)
  have noHead : text.toList ≠ "while (tape.read() != 0) \x7b".toList := ne_of_read? read rfl
  have noEnd : text.toList ≠ "\x7d".toList := ne_of_read? read rfl
  rw [readLine?, noMargin, if_neg noHead, if_neg noEnd, read]
  rfl

theorem readLine?_actionStatement (action : Action) (count : UInt32) (span : Span) :
    readLine? (Listing.actionStatement action count) =
      some (linePiece (.act action count span)) := by
  by_cases once : count = 1
  · have statement : commandStatement (.act action count span) = .once (onceStep action) :=
      if_pos once
    rw [Listing.actionStatement, if_pos once,
      readLine?_statement (read?_onceStatement action), ← statement]
    rfl
  · have statement : commandStatement (.act action count span) = countedStep count.toNat action :=
      if_neg once
    rw [Listing.actionStatement, if_neg once,
      readLine?_statement (read?_countedStatement count action), ← statement]
    rfl

/-- The statement in the line of an instruction. -/
def lineText : Instruction → String
  | .act action count _ => Listing.actionStatement action count
  | .output _ => "tape.output();"
  | .input _ => "tape.input();"
  | .loopStart _ => "while (tape.read() != 0) \x7b"
  | .loopEnd _ => "\x7d"

theorem readLine?_lineText (instruction : Instruction) :
    readLine? (lineText instruction) = some (linePiece instruction) := by
  have output : readLine? "tape.output();" = some (.leaf (.once .output)) := readLine?_statement rfl
  have input : readLine? "tape.input();" = some (.leaf (.once .input)) := readLine?_statement rfl
  have head : readLine? "while (tape.read() != 0) \x7b" = some (.opening ()) := rfl
  have last : readLine? "\x7d" = some (.closing ()) := rfl
  cases instruction with
  | act action count span => exact readLine?_actionStatement action count span
  | output span => exact output
  | input span => exact input
  | loopStart span => exact head
  | loopEnd span => exact last

/-! ### Indentation -/

/-- How many times the width a line is indented, when `depth` loops are open before its instruction.
A loop end stands as far to the right as the head of its loop. -/
def lineLevel (depth : Nat) : Instruction → Nat
  | .loopEnd _ => depth
  | _ => depth + 1

/-- The number of open loops after an instruction. -/
def depthAfter (depth : Nat) : Instruction → Nat
  | .loopStart _ => depth + 1
  | .loopEnd _ => depth - 1
  | _ => depth

/-- A text behind some spaces. -/
def indented (spaces : Nat) (text : String) : String :=
  .ofList (List.replicate spaces ' ') ++ text

/-- The lines of instructions, the first of which comes when `depth` loops are open. -/
def linesFrom (width depth : Nat) : List Instruction → List String
  | [] => []
  | instruction :: rest =>
      indented (width * lineLevel depth instruction) (lineText instruction) ::
        linesFrom width (depthAfter depth instruction) rest

theorem unindentLine_indented (spaces : Nat) (text : String) :
    Text.unindentLine (indented spaces text).toList = Text.unindentLine text.toList := by
  rw [Text.unindentLine, indented, String.toList_append, String.toList_ofList,
    List.dropWhile_append_of_pos, Text.unindentLine]
  intro c member
  exact beq_iff_eq.mpr (List.eq_of_mem_replicate member)

/-- Reading a line does not look at its leading spaces. -/
theorem readLine?_congr {line line' : String}
    (same : Text.unindentLine line.toList = Text.unindentLine line'.toList) :
    readLine? line = readLine? line' := by
  rw [Text.unindentLine, Text.unindentLine] at same
  rw [readLine?, readLine?, same]

theorem readLine?_indented (spaces : Nat) (text : String) :
    readLine? (indented spaces text) = readLine? text :=
  readLine?_congr (unindentLine_indented spaces text)

theorem mapM_readLine?_linesFrom (width depth : Nat) (program : List Instruction) :
    (linesFrom width depth program).mapM readLine? = some (program.map linePiece) := by
  induction program generalizing depth with
  | nil => rfl
  | cons instruction rest ih =>
      rw [linesFrom, List.mapM_cons, ih, readLine?_indented, readLine?_lineText]
      rfl

/-! ### All lines -/

/-- Every instruction adds its line. -/
theorem append_writes {listing next : Listing} {instruction : Instruction}
    (appended : listing.append instruction = .ok next) :
    next.indentWidth = listing.indentWidth ∧ next.depth = depthAfter listing.depth instruction ∧
      next.lines.toList = listing.lines.toList ++
        [indented (listing.indentWidth * lineLevel listing.depth instruction)
          (lineText instruction)] := by
  cases instruction with
  | loopEnd span =>
      obtain ⟨indentWidth, _ | ⟨innermost, outer⟩, lines⟩ := listing
      · cases appended
      · cases appended
        exact ⟨rfl, rfl, Array.toList_push⟩
  | _ =>
      cases appended
      exact ⟨rfl, rfl, Array.toList_push⟩

theorem foldlM_append_writes {program : List Instruction} {listing last : Listing}
    (appended : program.foldlM Listing.append listing = .ok last) :
    last.lines.toList =
      listing.lines.toList ++ linesFrom listing.indentWidth listing.depth program := by
  induction program generalizing listing with
  | nil =>
      cases appended
      exact (List.append_nil _).symm
  | cons instruction rest ih =>
      cases first : listing.append instruction with
      | error e =>
          rw [List.foldlM_cons, first] at appended
          cases appended
      | ok next =>
          rw [foldlM_cons_of_ok rest first] at appended
          obtain ⟨width, depth, written⟩ := append_writes first
          rw [ih appended, width, depth, written, List.append_assoc]
          rfl

theorem map_openLoops_append (listing : Listing) (instruction : Instruction) :
    (listing.append instruction).map Listing.openLoops =
      Loops.openStep listing.openLoops instruction := by
  obtain ⟨indentWidth, openLoops, lines⟩ := listing
  cases instruction with
  | loopEnd span => cases openLoops <;> rfl
  | _ => cases openLoops <;> rfl

/-- Statements are written for exactly the programs that a scan approves, and refused for the same
bracket. -/
theorem map_statements (layout : Layout) (program : List Instruction) :
    (layout.statements program).map (fun _ => ()) = Loops.check program := by
  have scanned := map_foldlM Listing.openLoops id map_openLoops_append program
    { indentWidth := layout.indentWidth }
  rw [List.map_id] at scanned
  change _ = program.foldlM Loops.openStep [] at scanned
  rw [Layout.statements, Loops.check, ← scanned]
  cases program.foldlM Listing.append { indentWidth := layout.indentWidth } with
  | error e => rfl
  | ok listing =>
      obtain ⟨indentWidth, openLoops, lines⟩ := listing
      cases openLoops <;> rfl

theorem toList_statements {layout : Layout} {program : List Instruction} {lines : Array String}
    (written : layout.statements program = .ok lines) :
    lines.toList = linesFrom layout.indentWidth 0 program := by
  obtain ⟨last, appended, closed⟩ := bind_eq_ok_iff.mp written
  have whole : last.lines = lines := by
    unfold Listing.close at closed
    split at closed
    · exact Except.ok.inj closed
    · cases closed
  rw [← whole]
  exact foldlM_append_writes appended

/-- The lines of a program's statements read as what its instructions ask for, one line each. -/
theorem mapM_readLine?_statements {layout : Layout} {program : List Instruction}
    {lines : Array String} (written : layout.statements program = .ok lines) :
    lines.toList.mapM readLine? = some (program.map linePiece) := by
  rw [toList_statements written, mapM_readLine?_linesFrom]

/-- The lines of a program's statements read as the body of the program's tree. -/
theorem read?_statements {layout : Layout} {program : List Instruction} {lines : Array String}
    (written : layout.statements program = .ok lines) :
    ∃ tree : LoopTree, tree.instructions = program ∧
      Body.read? lines.toList = some (treeBody tree) := by
  have approved : Loops.check program = .ok () := by
    rw [← map_statements layout, written]
    rfl
  obtain ⟨tree, rfl⟩ := Loops.check_eq_ok_iff.mp approved
  refine ⟨tree, rfl, ?_⟩
  rw [Body.read?, mapM_readLine?_statements written]
  exact Nest.ofPieces?_eq_some_iff.mpr (pieces_treeBody tree)

end Brainfuck.Emission
