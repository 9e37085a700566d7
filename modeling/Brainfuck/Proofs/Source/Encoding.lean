import Brainfuck.Proofs.Source.Marks

/-!
Parsing a text by its bytes. Cutting a text in two cuts its marks in two (`marks_append`), so the
mark of a symbol stands where the bytes of the characters before it end. Parsing the bytes of a text
therefore reads its symbol characters in order, each at its byte offset, and reads nothing within a
character of several bytes (`parse_spells_strip`).
-/

namespace Brainfuck.Source

/-! ### Texts in two parts -/

theorem length_ofText (text : String) : (ofText text).length = text.utf8ByteSize := by
  rw [ofText, ByteArray.toList, toList_loop]
  rfl

theorem marks_append (first second : String) :
    marks (first ++ second) = marks first ++ marksFrom first.utf8ByteSize second.toList := by
  rw [← scan_ofText, ← scan_ofText, ofText_eq, String.toList_append, List.flatMap_append,
    ← ofText_eq, scan, scanFrom_append, scanFrom_flatMap, length_ofText, Nat.zero_add, scan]

theorem length_marks (text : String) : (marks text).length = (strip text).length := by
  rw [← String.length_toList, toList_strip_eq_marks, List.length_map]

/-- The mark of a symbol stands behind those of the symbols before it, at the offset behind the
bytes before it. -/
theorem getElem?_marks_split (before : String) (symbol : Symbol) (after : String) :
    (marks (before ++ .singleton symbol.char ++ after))[(strip before).length]? =
      some ⟨symbol, before.utf8ByteSize⟩ := by
  have here : marksFrom before.utf8ByteSize [symbol.char] = [⟨symbol, before.utf8ByteSize⟩] := by
    rw [marksFrom, Symbol.ofChar?_char]
    rfl
  rw [marks_append, marks_append, String.toList_singleton, here, ← length_marks, List.append_assoc,
    List.getElem?_append_right (Nat.le_refl _), Nat.sub_self]
  rfl

theorem exists_split_of_marksFrom {offset place : Nat} {cs : List Char} {mark : Mark}
    (found : (marksFrom offset cs)[place]? = some mark) :
    ∃ before after, cs = before ++ mark.symbol.char :: after ∧
      (before.filterMap Symbol.ofChar?).length = place := by
  induction cs generalizing offset place with
  | nil => cases found
  | cons c rest ih =>
      rw [marksFrom] at found
      cases read : Symbol.ofChar? c with
      | none =>
          rw [read] at found
          obtain ⟨before, after, rfl, count⟩ := ih found
          exact ⟨c :: before, after, rfl, by rw [List.filterMap_cons, read, count]⟩
      | some symbol =>
          rw [read] at found
          cases place with
          | zero =>
              cases found
              exact ⟨[], rest, by rw [Symbol.ofChar?_eq_some_iff.mp read]; rfl, rfl⟩
          | succ place =>
              obtain ⟨before, after, rfl, count⟩ := ih found
              refine ⟨c :: before, after, rfl, ?_⟩
              rw [List.filterMap_cons, read, List.length_cons, count]

/-- Every mark is that of a symbol character, with as many symbols before it as marks. -/
theorem exists_split_of_marks {text : String} {place : Nat} {mark : Mark}
    (found : (marks text)[place]? = some mark) :
    ∃ before after, text = before ++ .singleton mark.symbol.char ++ after ∧
      (strip before).length = place ∧ mark.offset = before.utf8ByteSize := by
  obtain ⟨front, back, split, count⟩ := exists_split_of_marksFrom found
  have whole : text = .ofList front ++ .singleton mark.symbol.char ++ .ofList back := by
    apply String.toList_inj.mp
    simp [split]
  have place_eq : (strip (.ofList front)).length = place := by
    rw [← String.length_toList, toList_strip, List.length_map, String.toList_ofList, count]
  refine ⟨.ofList front, .ofList back, whole, place_eq, ?_⟩
  have same := getElem?_marks_split (.ofList front) mark.symbol (.ofList back)
  rw [← whole, place_eq, found] at same
  exact congrArg Mark.offset (Option.some.inj same)

/-! ### Characters of several bytes -/

/-- Where a character is no symbol, no mark stands in its bytes. -/
theorem outside_of_comment {before after : String} {c : Char} {mark : Mark}
    (comment : Symbol.ofChar? c = none)
    (member : mark ∈ marks (before ++ .singleton c ++ after)) :
    mark.offset < before.utf8ByteSize ∨ before.utf8ByteSize + c.utf8Size ≤ mark.offset := by
  have nothing : marksFrom before.utf8ByteSize [c] = [] := by
    rw [marksFrom, comment]
    rfl
  rw [marks_append, marks_append, String.toList_singleton, nothing, List.append_nil,
    String.utf8ByteSize_append, String.utf8ByteSize_singleton] at member
  rcases List.mem_append.mp member with member | member
  · rw [← scan_ofText] at member
    have bounds := bounds_of_mem_scanFrom member
    rw [length_ofText, Nat.zero_add] at bounds
    exact .inl bounds.2
  · rw [← scanFrom_flatMap] at member
    exact .inr (bounds_of_mem_scanFrom member).1

/-- The instructions of a text spell its symbols. The one with `place` instructions before it is the
unit instruction of the symbol character with `place` symbols before it, at the byte offset of this
character. None stands in the bytes of a character that has several. -/
theorem parse_spells_strip (text : String) :
    String.ofList ((parse (ofText text)).map (·.symbol.char)) = strip text ∧
    (∀ place instruction, (parse (ofText text))[place]? = some instruction ↔
      ∃ before symbol after, text = before ++ .singleton symbol.char ++ after ∧
        (strip before).length = place ∧ instruction = .unit symbol before.utf8ByteSize) ∧
    ∀ before c after, text = before ++ .singleton c ++ after → 1 < c.utf8Size →
      ∀ instruction ∈ parse (ofText text),
        instruction.span.start < before.utf8ByteSize ∨
          before.utf8ByteSize + c.utf8Size ≤ instruction.span.start := by
  rw [parse_ofText]
  refine ⟨?_, fun place instruction => ⟨fun found => ?_, ?_⟩, ?_⟩
  · apply String.toList_inj.mp
    rw [String.toList_ofList, toList_strip_eq_marks, List.map_map]
    exact List.map_congr_left fun mark _ => congrArg Symbol.char mark.symbol_instruction
  · rw [List.getElem?_map] at found
    obtain ⟨⟨symbol, offset⟩, here, rfl⟩ := Option.map_eq_some_iff.mp found
    obtain ⟨before, after, split, count, rfl⟩ := exists_split_of_marks here
    exact ⟨before, symbol, after, split, count, rfl⟩
  · rintro ⟨before, symbol, after, rfl, rfl, rfl⟩
    rw [List.getElem?_map, getElem?_marks_split]
    rfl
  · rintro before c after rfl long instruction member
    obtain ⟨mark, here, rfl⟩ := List.mem_map.mp member
    have comment : Symbol.ofChar? c = none := by
      cases read : Symbol.ofChar? c with
      | none => rfl
      | some symbol =>
          rw [Symbol.ofChar?_eq_some_iff] at read
          rw [read, symbol.utf8Size_char] at long
          exact absurd long (Nat.lt_irrefl 1)
    rw [Mark.instruction, Instruction.unit, Instruction.span_ofSymbol]
    exact outside_of_comment comment here

/-- The theorem for a text in which a character of three bytes stands between two symbols. -/
theorem parse_spells_strip_arrow :
    let text := "+→]"
    (text = "+" ++ .singleton '→' ++ "]" ∧ 1 < '→'.utf8Size) ∧
      (∀ instruction ∈ parse (ofText text),
        instruction.span.start < 1 ∨ 4 ≤ instruction.span.start) ∧
      (parse (ofText text))[1]? = some (.unit .loopEnd 4) := by
  intro text
  have split : text = "+" ++ .singleton '→' ++ "]" := by decide
  have long : 1 < '→'.utf8Size := by decide
  obtain ⟨-, instructions, outside⟩ := parse_spells_strip text
  refine ⟨⟨split, long⟩, outside "+" '→' "]" split long, (instructions 1 _).mpr ?_⟩
  exact ⟨"+→", .loopEnd, "", by decide, by decide, rfl⟩

end Brainfuck.Source
