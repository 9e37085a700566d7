import Brainfuck.Source

/-!
The symbols of a source and where they stand. A mark is a symbol with its byte offset. In a text a
character that is no symbol is written in bytes that are none either, so scanning the bytes of the
text finds exactly the marks of its characters (`scan_ofText`), and without its comments the text
has the same symbols at the offsets 0, 1, 2 and so on (`marks_strip`).
-/

namespace Brainfuck

theorem Symbol.ofChar?_eq_some_iff {c : Char} {s : Symbol} : ofChar? c = some s ↔ c = s.char := by
  constructor
  · intro found
    unfold ofChar? at found
    split at found <;> cases found <;> rfl
  · rintro rfl
    exact ofChar?_char s

/-- A symbol is written in one byte. -/
theorem Symbol.utf8Size_char (s : Symbol) : s.char.utf8Size = 1 := by
  cases s with
  | act action => cases action <;> rfl
  | _ => rfl

namespace Source

/-! ### The bytes of a character -/

theorem toList_loop (bytes : ByteArray) (i : Nat) (front : List UInt8) :
    ByteArray.toList.loop bytes i front = front.reverse ++ bytes.data.toList.drop i := by
  fun_induction ByteArray.toList.loop bytes i front with
  | case1 i front lt ih =>
      have here : i < bytes.data.toList.length := lt
      have next : bytes.get! i = bytes.data.toList[i] := getElem!_pos bytes.data i lt
      rw [ih, List.drop_eq_getElem_cons here, next, List.reverse_cons, List.append_assoc]
      rfl
  | case2 i front ge =>
      have behind : bytes.data.toList.length ≤ i := Nat.not_lt.mp ge
      rw [List.drop_eq_nil_of_le behind, List.append_nil]

/-- A text is written character by character. -/
theorem ofText_eq (text : String) : ofText text = text.toList.flatMap String.utf8EncodeChar := by
  have encoded : text.toUTF8 = (text.toList.flatMap String.utf8EncodeChar).toByteArray := by
    rw [String.toUTF8_eq_toByteArray, ← String.utf8Encode_toList]
    rfl
  rw [ofText, encoded, ByteArray.toList, toList_loop, List.toList_data_toByteArray]
  rfl

theorem symbolOfByte?_of_le {b : UInt8} (high : 128 ≤ b.toNat) : symbolOfByte? b = none := by
  cases found : symbolOfByte? b with
  | none => rfl
  | some symbol =>
      have same : (Char.ofUInt8 b).toNat = symbol.char.toNat :=
        congrArg Char.toNat (Symbol.ofChar?_eq_some_iff.mp found)
      have low : symbol.char.toNat < 128 := by
        cases symbol with
        | act action => cases action <;> decide
        | _ => decide
      have value : (Char.ofUInt8 b).toNat = b.toNat := rfl
      omega

/-- A character of several bytes has none below 128 among them. -/
theorem le_of_mem_utf8EncodeChar {c : Char} (long : 127 < c.val.toNat) :
    ∀ b ∈ String.utf8EncodeChar c, 128 ≤ b.toNat := by
  have high (n : Nat) (within : n < 256) (le : 128 ≤ n) : 128 ≤ (UInt8.ofNat n).toNat := by
    rw [UInt8.toNat_ofNat']
    omega
  intro b member
  rw [String.utf8EncodeChar, if_neg (Nat.not_le.mpr long)] at member
  split at member
  · simp only [List.mem_cons, List.not_mem_nil, or_false] at member
    rcases member with rfl | rfl <;> exact high _ (by omega) (by omega)
  · split at member
    · simp only [List.mem_cons, List.not_mem_nil, or_false] at member
      rcases member with rfl | rfl | rfl <;> exact high _ (by omega) (by omega)
    · simp only [List.mem_cons, List.not_mem_nil, or_false] at member
      rcases member with rfl | rfl | rfl | rfl <;> exact high _ (by omega) (by omega)

/-! ### Marks -/

/-- A symbol and the byte offset at which it stands. -/
structure Mark where
  symbol : Symbol
  offset : Nat
deriving DecidableEq, Repr

/-- The instruction that is read from a mark. -/
def Mark.instruction (mark : Mark) : Instruction :=
  .unit mark.symbol mark.offset

@[simp] theorem Mark.symbol_instruction (mark : Mark) : mark.instruction.symbol = mark.symbol :=
  Instruction.symbol_ofSymbol ..

/-- The marks of some bytes that stand from an offset on. -/
def scanFrom (offset : Nat) (bytes : List UInt8) : List Mark :=
  (bytes.zipIdx offset).filterMap fun (b, place) => (symbolOfByte? b).map (⟨·, place⟩)

/-- The marks of some bytes, in order. -/
def scan (bytes : List UInt8) : List Mark :=
  scanFrom 0 bytes

/-- The symbol that the byte at an offset writes. -/
def symbolAt? (bytes : List UInt8) (place : Nat) : Option Symbol :=
  bytes[place]?.bind symbolOfByte?

theorem parse_eq_scan (bytes : List UInt8) : parse bytes = (scan bytes).map Mark.instruction := by
  rw [parse, scan, scanFrom, List.map_filterMap]
  congr 1
  funext ⟨b, place⟩
  exact (Option.map_map Mark.instruction (⟨·, place⟩) (symbolOfByte? b)).symm

theorem scanFrom_append (offset : Nat) (a b : List UInt8) :
    scanFrom offset (a ++ b) = scanFrom offset a ++ scanFrom (offset + a.length) b := by
  rw [scanFrom, List.zipIdx_append, List.filterMap_append]
  rfl

theorem map_symbol_scanFrom (offset : Nat) (bytes : List UInt8) :
    (scanFrom offset bytes).map Mark.symbol = bytes.filterMap symbolOfByte? := by
  conv => right; rw [← List.zipIdx_map_fst offset bytes]
  rw [scanFrom, List.map_filterMap, List.filterMap_map]
  congr 1
  funext ⟨b, place⟩
  exact (Option.map_map ..).trans (Option.map_id' ..)

theorem mem_scanFrom_iff {offset : Nat} {bytes : List UInt8} {mark : Mark} :
    mark ∈ scanFrom offset bytes ↔
      offset ≤ mark.offset ∧ symbolAt? bytes (mark.offset - offset) = some mark.symbol := by
  rw [scanFrom, List.mem_filterMap, symbolAt?]
  constructor
  · rintro ⟨⟨b, place⟩, member, read⟩
    obtain ⟨symbol, found, rfl⟩ := Option.map_eq_some_iff.mp read
    obtain ⟨behind, here⟩ := List.mem_zipIdx_iff_le_and_getElem?_sub.mp member
    exact ⟨behind, Option.bind_eq_some_iff.mpr ⟨b, here, found⟩⟩
  · rintro ⟨behind, read⟩
    obtain ⟨b, here, found⟩ := Option.bind_eq_some_iff.mp read
    refine ⟨(b, mark.offset), List.mem_zipIdx_iff_le_and_getElem?_sub.mpr ⟨behind, here⟩, ?_⟩
    exact Option.map_eq_some_iff.mpr ⟨mark.symbol, found, rfl⟩

theorem bounds_of_mem_scanFrom {offset : Nat} {bytes : List UInt8} {mark : Mark}
    (member : mark ∈ scanFrom offset bytes) :
    offset ≤ mark.offset ∧ mark.offset < offset + bytes.length := by
  obtain ⟨le, read⟩ := mem_scanFrom_iff.mp member
  obtain ⟨b, here, -⟩ := Option.bind_eq_some_iff.mp read
  obtain ⟨lt, -⟩ := List.getElem?_eq_some_iff.mp here
  exact ⟨le, by omega⟩

/-- The marks of some bytes are the symbols at their offsets. -/
theorem mem_scan_iff {bytes : List UInt8} {mark : Mark} :
    mark ∈ scan bytes ↔ symbolAt? bytes mark.offset = some mark.symbol := by
  rw [scan, mem_scanFrom_iff]
  exact and_iff_right (Nat.zero_le _)

/-- Marks stand in order. -/
theorem pairwise_scan (bytes : List UInt8) :
    (scan bytes).Pairwise fun a b => a.offset < b.offset := by
  have places : bytes.zipIdx.Pairwise fun a b => a.2 < b.2 := by
    rw [← List.pairwise_map (f := Prod.snd) (R := (· < ·)), List.zipIdx_map_snd]
    exact List.pairwise_lt_range'
  apply places.filterMap
  rintro ⟨b, place⟩ ⟨b', place'⟩ lt mark read mark' read'
  obtain ⟨symbol, -, rfl⟩ := Option.map_eq_some_iff.mp read
  obtain ⟨symbol', -, rfl⟩ := Option.map_eq_some_iff.mp read'
  exact lt

/-! ### The marks of a text -/

/-- The marks of some characters that are written from a byte offset on. -/
def marksFrom : Nat → List Char → List Mark
  | _, [] => []
  | offset, c :: rest =>
      match Symbol.ofChar? c with
      | some symbol => ⟨symbol, offset⟩ :: marksFrom (offset + c.utf8Size) rest
      | none => marksFrom (offset + c.utf8Size) rest

/-- The marks of a text, in order. -/
def marks (text : String) : List Mark :=
  marksFrom 0 text.toList

/-- The bytes of one character hold the symbol that it is, or none. -/
theorem scanFrom_utf8EncodeChar (offset : Nat) (c : Char) :
    scanFrom offset (String.utf8EncodeChar c) =
      (Symbol.ofChar? c).toList.map fun symbol => ⟨symbol, offset⟩ := by
  by_cases short : c.val.toNat ≤ 127
  · have byte : String.utf8EncodeChar c = [UInt8.ofNat c.val.toNat] := by
      rw [String.utf8EncodeChar, if_pos short]
    have char : Char.ofUInt8 (UInt8.ofNat c.val.toNat) = c := by
      apply Char.ext
      apply UInt32.toNat_inj.mp
      change (UInt8.ofNat c.val.toNat).toNat = c.val.toNat
      rw [UInt8.toNat_ofNat']
      omega
    have read : symbolOfByte? (UInt8.ofNat c.val.toNat) = Symbol.ofChar? c :=
      congrArg Symbol.ofChar? char
    rw [byte, scanFrom, List.zipIdx_cons, List.zipIdx_nil, List.filterMap_cons,
      List.filterMap_nil]
    simp only [read]
    cases Symbol.ofChar? c <;> rfl
  · have long := Nat.not_le.mp short
    have noSymbol : Symbol.ofChar? c = none := by
      cases found : Symbol.ofChar? c with
      | none => rfl
      | some symbol =>
          rw [Symbol.ofChar?_eq_some_iff] at found
          subst found
          cases symbol with
          | act action => cases action <;> exact absurd long (by decide)
          | _ => exact absurd long (by decide)
    rw [noSymbol]
    refine List.filterMap_eq_nil_iff.mpr ?_
    rintro ⟨b, place⟩ member
    have comment := symbolOfByte?_of_le
      (le_of_mem_utf8EncodeChar long b (List.fst_mem_of_mem_zipIdx member))
    exact congrArg (Option.map fun symbol => Mark.mk symbol place) comment

theorem scanFrom_flatMap (offset : Nat) (cs : List Char) :
    scanFrom offset (cs.flatMap String.utf8EncodeChar) = marksFrom offset cs := by
  induction cs generalizing offset with
  | nil => rfl
  | cons c rest ih =>
      rw [List.flatMap_cons, scanFrom_append, scanFrom_utf8EncodeChar,
        String.length_utf8EncodeChar, ih, marksFrom]
      cases Symbol.ofChar? c <;> rfl

/-- Scanning the bytes of a text finds its marks. -/
theorem scan_ofText (text : String) : scan (ofText text) = marks text := by
  rw [ofText_eq]
  exact scanFrom_flatMap 0 text.toList

theorem parse_ofText (text : String) : parse (ofText text) = (marks text).map Mark.instruction := by
  rw [parse_eq_scan, scan_ofText]

/-! ### Comments -/

theorem map_symbol_marksFrom (offset : Nat) (cs : List Char) :
    (marksFrom offset cs).map Mark.symbol = cs.filterMap Symbol.ofChar? := by
  induction cs generalizing offset with
  | nil => rfl
  | cons c rest ih =>
      rw [marksFrom, List.filterMap_cons]
      cases Symbol.ofChar? c with
      | none => exact ih _
      | some symbol => exact congrArg (symbol :: ·) (ih _)

theorem toList_strip (text : String) :
    (strip text).toList = (text.toList.filterMap Symbol.ofChar?).map Symbol.char := by
  rw [strip, String.toList_ofList]
  induction text.toList with
  | nil => rfl
  | cons c rest ih =>
      rw [List.filter_cons, List.filterMap_cons]
      cases found : Symbol.ofChar? c with
      | none => exact ih
      | some symbol =>
          obtain rfl := Symbol.ofChar?_eq_some_iff.mp found
          exact congrArg (symbol.char :: ·) ih

/-- The symbols of a text are the characters that are left without its comments. -/
theorem toList_strip_eq_marks (text : String) :
    (strip text).toList = (marks text).map (·.symbol.char) := by
  rw [toList_strip, ← map_symbol_marksFrom 0, List.map_map]
  rfl

/-- Characters that are all symbols stand one byte apart. -/
theorem marksFrom_map_char (offset : Nat) (symbols : List Symbol) :
    marksFrom offset (symbols.map Symbol.char) =
      (symbols.zipIdx offset).map fun (symbol, place) => ⟨symbol, place⟩ := by
  induction symbols generalizing offset with
  | nil => rfl
  | cons symbol rest ih =>
      rw [List.map_cons, marksFrom, Symbol.ofChar?_char, symbol.utf8Size_char, ih,
        List.zipIdx_cons]
      rfl

/-- Without its comments, a text has the same symbols, and the k-th one at the offset k. -/
theorem marks_strip (text : String) :
    marks (strip text) = (marks text).zipIdx.map fun (mark, place) => ⟨mark.symbol, place⟩ := by
  rw [marks, toList_strip, marksFrom_map_char, ← map_symbol_marksFrom 0, List.zipIdx_map,
    List.map_map]
  rfl

example : marks "é+]" = [⟨.act .add, 2⟩, ⟨.loopEnd, 3⟩] ∧
    marks (strip "é+]") = [⟨.act .add, 0⟩, ⟨.loopEnd, 1⟩] := by
  decide

theorem pairwise_marks (text : String) :
    (marks text).Pairwise fun a b => a.offset < b.offset := by
  rw [← scan_ofText]
  exact pairwise_scan (ofText text)

end Source

end Brainfuck
