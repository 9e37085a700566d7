import Brainfuck.Text.Blank
import Mathlib.Data.List.DropRight

/-!
Blanks around a word. A text spells a word if it is the word with blanks before and behind it. A
word that neither begins nor ends with a blank is what trimming makes of the texts that spell it,
and of no others (`trimBlanks_eq_iff`).
-/

namespace Brainfuck.Text

/-- The code points with the property White_Space. -/
def whiteSpace : List Nat :=
  [0x0009, 0x000A, 0x000B, 0x000C, 0x000D, 0x0020, 0x0085, 0x00A0, 0x1680, 0x2000, 0x2001, 0x2002,
    0x2003, 0x2004, 0x2005, 0x2006, 0x2007, 0x2008, 0x2009, 0x200A, 0x2028, 0x2029, 0x202F, 0x205F,
    0x3000]

/-- The text is the word with white space before and behind it, or on one side, or on none. -/
def Spells (text word : List Char) : Prop :=
  ∃ front back, text = front ++ word ++ back ∧ (∀ c ∈ front, c.toNat ∈ whiteSpace) ∧
    ∀ c ∈ back, c.toNat ∈ whiteSpace

/-- The word neither begins nor ends with a blank. -/
def IsTrimmed (word : List Char) : Prop :=
  (∀ c ∈ word.head?, isBlank c = false) ∧ ∀ c ∈ word.getLast?, isBlank c = false

-- Looking at the two ends only: all characters together are too many to go through.
instance (word : List Char) : Decidable (IsTrimmed word) :=
  @instDecidableAnd _ _ (Option.decidableForallMem _) (Option.decidableForallMem _)

theorem isBlank_iff {c : Char} : isBlank c = true ↔ c.toNat ∈ whiteSpace := by
  have controls (n : Nat) : 0x0009 ≤ n ∧ n ≤ 0x000D ↔ n ∈ List.range' 0x0009 5 := by
    rw [List.mem_range'_1]
    omega
  have spaces (n : Nat) : 0x2000 ≤ n ∧ n ≤ 0x200A ↔ n ∈ List.range' 0x2000 11 := by
    rw [List.mem_range'_1]
    omega
  simp only [isBlank, Bool.or_eq_true, Bool.and_eq_true, decide_eq_true_eq, beq_iff_eq, controls,
    spaces, List.range', whiteSpace, List.mem_cons, List.not_mem_nil, or_false, or_assoc]

/-- What is dropped from the front of a list ends where the test fails first. -/
theorem dropWhile_append_of_stop {α : Type} {p : α → Bool} {front rest : List α}
    (inside : ∀ a ∈ front, p a = true) (stops : ∀ a ∈ rest.head?, p a = false) :
    (front ++ rest).dropWhile p = rest := by
  rw [List.dropWhile_append_of_pos inside]
  cases rest with
  | nil => rfl
  | cons a rest => exact List.dropWhile_cons_of_neg (by simp [stops a rfl])

theorem spells_trimBlanks (text : List Char) : Spells text (trimBlanks text) := by
  refine ⟨text.takeWhile isBlank, (text.dropWhile isBlank).rtakeWhile isBlank, ?_, ?_, ?_⟩
  · change text = _ ++ (text.dropWhile isBlank).rdropWhile isBlank ++ _
    rw [List.append_assoc, List.rdropWhile_append_rtakeWhile, List.takeWhile_append_dropWhile]
  · exact fun c member => isBlank_iff.mp (List.mem_takeWhile_imp member)
  · exact fun c member => isBlank_iff.mp (List.mem_rtakeWhile_imp member)

theorem trimBlanks_of_spells {text word : List Char} (trimmed : IsTrimmed word)
    (spells : Spells text word) : trimBlanks text = word := by
  obtain ⟨front, back, rfl, whiteFront, whiteBack⟩ := spells
  have inFront : ∀ c ∈ front, isBlank c = true :=
    fun c member => isBlank_iff.mpr (whiteFront c member)
  have inBack : ∀ c ∈ back, isBlank c = true :=
    fun c member => isBlank_iff.mpr (whiteBack c member)
  cases word with
  | nil =>
      have blank : ∀ c ∈ front ++ [] ++ back, isBlank c = true := by
        intro c member
        rw [List.append_nil, List.mem_append] at member
        exact member.elim (inFront c) (inBack c)
      rw [trimBlanks, List.dropWhile_eq_nil_iff.mpr blank]
      rfl
  | cons c rest =>
      have cutFront : (front ++ (c :: rest ++ back)).dropWhile isBlank = c :: rest ++ back :=
        dropWhile_append_of_stop inFront trimmed.1
      have cutBack : (back.reverse ++ (c :: rest).reverse).dropWhile isBlank =
          (c :: rest).reverse := by
        refine dropWhile_append_of_stop (fun b member => inBack b (List.mem_reverse.mp member)) ?_
        rw [List.head?_reverse]
        exact trimmed.2
      rw [trimBlanks, List.append_assoc, cutFront, List.reverse_append, cutBack,
        List.reverse_reverse]

/-- Trimming leaves a word, if nothing more could be trimmed from that, of exactly the texts that
spell it. -/
theorem trimBlanks_eq_iff {text word : List Char} (trimmed : IsTrimmed word) :
    trimBlanks text = word ↔ Spells text word := by
  constructor
  · rintro rfl
    exact spells_trimBlanks text
  · exact trimBlanks_of_spells trimmed

end Brainfuck.Text
