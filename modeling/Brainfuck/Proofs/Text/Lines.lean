import Brainfuck.Text.Lines

/-!
The lines of a text and their indentation. `unindent` takes the leading spaces from every line. Two
texts are the same up to indentation if and only if their lines are, one by one
(`unindent_eq_iff`).
-/

namespace Brainfuck.Text

/-- What stands before, between and behind the line feeds of a text. -/
def lines (text : String) : List (List Char) :=
  text.toList.splitOn '\n'

/-- A line without its leading spaces. -/
def unindentLine (line : List Char) : List Char :=
  line.dropWhile (· == ' ')

/-- The text without the leading spaces of its lines. -/
def unindent (text : String) : String :=
  .ofList (['\n'].intercalate ((lines text).map unindentLine))

theorem notMem_of_mem_splitOn {separator : Char} {text piece : List Char}
    (member : piece ∈ text.splitOn separator) : separator ∉ piece := by
  induction text generalizing piece with
  | nil =>
      rw [List.splitOn_nil, List.mem_singleton] at member
      exact member ▸ List.not_mem_nil
  | cons c rest ih =>
      obtain ⟨first, others, split⟩ :=
        List.exists_cons_of_ne_nil (List.splitOn_ne_nil separator rest)
      rw [split] at ih
      rw [List.splitOn_cons_eq_if_modifyHead, split] at member
      by_cases here : c = separator
      · rw [if_pos (by simpa using here), List.mem_cons] at member
        rcases member with rfl | member
        · exact List.not_mem_nil
        · exact ih member
      · rw [if_neg (by simpa using here), List.modifyHead_cons, List.mem_cons] at member
        rcases member with rfl | member
        · rw [List.mem_cons, not_or]
          exact ⟨Ne.symm here, ih List.mem_cons_self⟩
        · exact ih (List.mem_cons_of_mem _ member)

/-- There is one piece more than there are separators. -/
theorem length_splitOn (separator : Char) (text : List Char) :
    (text.splitOn separator).length = text.count separator + 1 := by
  induction text with
  | nil => rfl
  | cons c rest ih =>
      rw [List.splitOn_cons_eq_if_modifyHead, List.count_cons]
      split
      · rw [List.length_cons, ih]
      · rw [List.length_modifyHead, ih]

/-! ### Texts made of lines -/

theorem lines_of_newline_notMem {text : String} (clean : '\n' ∉ text.toList) :
    lines text = [text.toList] :=
  List.splitOn_eq_singleton clean

/-- A text after some lines has these lines and its own. -/
theorem lines_unlines_append (texts : List String) (text : String) :
    lines (unlines texts ++ text) = texts.flatMap lines ++ lines text := by
  induction texts with
  | nil => exact congrArg lines (String.empty_append ..)
  | cons first texts ih =>
      have split : (unlines (first :: texts) ++ text).toList =
          first.toList ++ '\n' :: (unlines texts ++ text).toList := by
        simp [unlines, String.join_cons]
      rw [lines, split, List.splitOn_append_cons_self, List.flatMap_cons, List.append_assoc, ← ih]
      rfl

theorem flatMap_lines {texts : List String} (clean : ∀ text ∈ texts, '\n' ∉ text.toList) :
    texts.flatMap lines = texts.map String.toList := by
  induction texts with
  | nil => rfl
  | cons text texts ih =>
      rw [List.flatMap_cons, lines_of_newline_notMem (clean text List.mem_cons_self),
        ih fun other member => clean other (List.mem_cons_of_mem _ member)]
      rfl

/-! ### Indentation -/

theorem newline_notMem_unindentLine {text : String} {line : List Char}
    (member : line ∈ (lines text).map unindentLine) : '\n' ∉ line := by
  obtain ⟨whole, found, rfl⟩ := List.mem_map.mp member
  exact fun inside => notMem_of_mem_splitOn found ((List.dropWhile_sublist _).mem inside)

theorem unindent_eq_iff {text text' : String} :
    unindent text = unindent text' ↔
      (lines text).map unindentLine = (lines text').map unindentLine := by
  constructor
  · intro same
    have joined := String.ofList_inj.mp same
    -- The lines can be told apart again, since there is no line feed in them.
    have split (text : String) : (['\n'].intercalate ((lines text).map unindentLine)).splitOn '\n' =
        (lines text).map unindentLine :=
      List.splitOn_intercalate '\n' (fun _ => newline_notMem_unindentLine) (by simp [lines])
    rw [← split text, joined, split text']
  · intro same
    rw [unindent, same, unindent]

example : unindent "a\n    b\n\n  c" = "a\nb\n\nc" := by
  decide

end Brainfuck.Text
