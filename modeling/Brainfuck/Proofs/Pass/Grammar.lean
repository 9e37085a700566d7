import Brainfuck.Proofs.Pass.Selection
import Brainfuck.Proofs.Text.Blank
import Brainfuck.Proofs.Text.Lines

/-!
The grammar of selections. A selection is one of the two words, or names of passes between commas
with white space around each of them. `Selects` and `RefusesAt` say this of the text alone, without
looking anything up, and reading a selection agrees with them (`select_grammar`). The two words have
no blanks around them and are no items of a list.
-/

namespace Brainfuck.Pass

/-! ### The grammar -/

/-- The pieces are what stands before, between and behind the commas of a text. -/
structure CutAtCommas (text : String) (pieces : List (List Char)) : Prop where
  nonempty : pieces ≠ []
  noComma : ∀ piece ∈ pieces, ',' ∉ piece
  whole : [','].intercalate pieces = text.toList

/-- The piece is the name of the registered pass, with white space around it. -/
def Names (piece : List Char) : Prop :=
  Text.Spells piece "collapse-runs".toList

/-- What a selection may be, and the passes that it selects. -/
inductive Selects (text : String) : List Pass → Prop where
  | none (word : text = "none") : Selects text []
  | all (word : text = "all") : Selects text defaults
  | listed {pieces : List (List Char)} (cut : CutAtCommas text pieces)
      (named : ∀ piece ∈ pieces, Names piece) :
      Selects text (List.replicate (text.toList.count ',' + 1) collapseRuns)

/-- The text is neither of the two words, and this is its first piece that names no pass. -/
inductive RefusesAt (text : String) : List Char → Prop where
  | intro {before : List (List Char)} {piece : List Char} {after : List (List Char)}
      (notNone : text ≠ "none") (notAll : text ≠ "all")
      (cut : CutAtCommas text (before ++ piece :: after)) (named : ∀ b ∈ before, Names b)
      (unnamed : ¬ Names piece) : RefusesAt text piece

/-! ### Pieces -/

theorem cutAtCommas_iff {text : String} {pieces : List (List Char)} :
    CutAtCommas text pieces ↔ text.toList.splitOn ',' = pieces := by
  constructor
  · rintro ⟨nonempty, noComma, whole⟩
    rw [← whole, List.splitOn_intercalate ',' noComma nonempty]
  · rintro rfl
    exact ⟨List.splitOn_ne_nil _ _, fun _ => Text.notMem_of_mem_splitOn,
      List.intercalate_splitOn ','⟩

theorem known_iff_names {piece : List Char} : Known piece ↔ Names piece :=
  Text.trimBlanks_eq_iff (by decide)

/-- A text without a comma is its own piece. -/
theorem CutAtCommas.eq_singleton {text : String} {pieces : List (List Char)}
    (cut : CutAtCommas text pieces) (plain : ',' ∉ text.toList) : pieces = [text.toList] := by
  rw [← cutAtCommas_iff.mp cut, List.splitOn_eq_singleton plain]

/-- A list of names is neither of the two words. -/
theorem CutAtCommas.ne_of_named {text word : String} {pieces : List (List Char)}
    (cut : CutAtCommas text pieces) (named : ∀ piece ∈ pieces, Names piece)
    (plain : ',' ∉ word.toList) (other : ¬ Known word.toList) : text ≠ word := by
  rintro rfl
  rw [cut.eq_singleton plain] at named
  exact other (known_iff_names.mpr (named _ List.mem_cons_self))

/-! ### Reading agrees -/

theorem firstUnknown?_eq_some_iff {text name : String} :
    firstUnknown? text = some name ↔ RefusesAt text name.toList := by
  rw [firstUnknown?]
  constructor
  · intro unknown
    split at unknown
    · cases unknown
    · rename_i special
      obtain ⟨notNone, notAll⟩ := not_or.mp special
      obtain ⟨piece, found, rfl⟩ := Option.map_eq_some_iff.mp unknown
      obtain ⟨isUnknown, before, after, cut, earlier⟩ := List.find?_eq_some_iff_append.mp found
      rw [String.toList_ofList]
      refine .intro notNone notAll (cutAtCommas_iff.mpr cut) ?_ ?_
      · intro b member
        exact known_iff_names.mp (by simpa using earlier b member)
      · exact fun names => of_decide_eq_true isUnknown (known_iff_names.mpr names)
  · rintro ⟨notNone, notAll, cut, named, unnamed⟩
    rw [if_neg (not_or.mpr ⟨notNone, notAll⟩), Option.map_eq_some_iff]
    refine ⟨name.toList, ?_, String.ofList_toList⟩
    rw [List.find?_eq_some_iff_append]
    refine ⟨?_, _, _, cutAtCommas_iff.mp cut, ?_⟩
    · simpa [known_iff_names] using unnamed
    · intro b member
      simpa [known_iff_names] using named b member

/-- A selection is refused at its first piece that names no pass, which is reported as it was
written. -/
theorem select_eq_error_iff {text : String} {e : Error} :
    select text = .error e ↔
      ∃ piece, RefusesAt text piece ∧ e = .unknownPass (String.ofList piece) := by
  constructor
  · intro refused
    cases unknown : firstUnknown? text with
    | none =>
        obtain ⟨count, selected, -⟩ := select_of_known unknown
        cases refused.symm.trans selected
    | some name =>
        cases refused.symm.trans (select_of_unknown unknown)
        exact ⟨name.toList, firstUnknown?_eq_some_iff.mp unknown, by rw [String.ofList_toList]⟩
  · rintro ⟨piece, refuses, rfl⟩
    apply select_of_unknown
    rwa [firstUnknown?_eq_some_iff, String.toList_ofList]

/-- A selection is accepted if it is in the grammar, with the passes that it selects there. -/
theorem select_eq_ok_iff {text : String} {passes : List Pass} :
    select text = .ok passes ↔ Selects text passes := by
  constructor
  · intro selected
    by_cases isNone : text = "none"
    · subst isNone
      cases selected
      exact .none rfl
    · by_cases isAll : text = "all"
      · subst isAll
        cases selected
        exact .all rfl
      · have known : ∀ piece ∈ text.toList.splitOn ',', Known piece := by
          apply known_of_firstUnknown? isNone isAll
          cases unknown : firstUnknown? text with
          | none => rfl
          | some name => cases selected.symm.trans (select_of_unknown unknown)
        cases selected.symm.trans (select_of_pieces isNone isAll known)
        rw [Text.length_splitOn]
        exact .listed (cutAtCommas_iff.mpr rfl) fun piece member =>
          known_iff_names.mp (known piece member)
  · intro selects
    cases selects with
    | none word => rw [word]; rfl
    | all word => rw [word]; rfl
    | @listed pieces cut named =>
        have notNone : text ≠ "none" := cut.ne_of_named named (by decide) (by decide)
        have notAll : text ≠ "all" := cut.ne_of_named named (by decide) (by decide)
        rw [← Text.length_splitOn]
        apply select_of_pieces notNone notAll
        rw [cutAtCommas_iff.mp cut]
        exact fun piece member => known_iff_names.mpr (named piece member)

/-- A piece that spells another word than the name of the pass names nothing. -/
theorem not_names_of_spells {piece word : List Char} (trimmed : Text.IsTrimmed word)
    (other : word ≠ "collapse-runs".toList) (spells : Text.Spells piece word) : ¬ Names piece := by
  intro names
  rw [← known_iff_names, Known, Text.trimBlanks_of_spells trimmed spells] at names
  exact other names

/-- Reading a selection accepts exactly the grammar. It succeeds for the word `none`, without a
pass, for the word `all`, with the default passes, and for a text whose pieces between the commas
all name the one pass, with one pass more than there are commas. Every other text is refused, at its
first piece that names no pass. In particular, where a piece has nothing in it but white space, or
one of the two words, the text is refused, unless it is that word and nothing else. -/
theorem select_grammar (text : String) :
    (∀ passes, select text = .ok passes ↔ Selects text passes) ∧
    (∀ e, select text = .error e ↔
      ∃ piece, RefusesAt text piece ∧ e = .unknownPass (String.ofList piece)) ∧
    (text ≠ "none" → text ≠ "all" → ∀ pieces, CutAtCommas text pieces →
      (∃ piece ∈ pieces, ∃ word ∈ ["", "all", "none"], Text.Spells piece word.toList) →
      ∃ name, select text = .error (.unknownPass name)) := by
  refine ⟨fun passes => select_eq_ok_iff, fun e => select_eq_error_iff, ?_⟩
  rintro notNone notAll pieces cut ⟨piece, member, word, isWord, spells⟩
  have trimmed : ∀ word ∈ ["", "all", "none"],
      Text.IsTrimmed word.toList ∧ word.toList ≠ "collapse-runs".toList := by decide
  have unnamed : ¬ Names piece :=
    not_names_of_spells (trimmed word isWord).1 (trimmed word isWord).2 spells
  cases unknown : firstUnknown? text with
  | some name => exact ⟨name, select_of_unknown unknown⟩
  | none =>
      have known := known_of_firstUnknown? notNone notAll unknown
      rw [cutAtCommas_iff.mp cut] at known
      exact absurd (known_iff_names.mp (known piece member)) unnamed

/-- The theorem at a list of two names, one of them behind a wide space; at a list in which `all`
stands; and at `none` with a blank in front, which is no longer the word. -/
theorem select_grammar_blanks :
    Selects "collapse-runs,\u3000collapse-runs" [collapseRuns, collapseRuns] ∧
      RefusesAt "collapse-runs, all" " all".toList ∧
      CutAtCommas " none" [" none".toList] ∧
      ∃ name, select " none" = .error (.unknownPass name) := by
  have accepted : select "collapse-runs,\u3000collapse-runs" =
      .ok [collapseRuns, collapseRuns] := by
    cbv
  have refused : select "collapse-runs, all" = .error (.unknownPass " all") := by
    cbv
  have cut : CutAtCommas " none" [" none".toList] := cutAtCommas_iff.mpr (by decide)
  refine ⟨((select_grammar _).1 _).mp accepted, ?_, cut, ?_⟩
  · obtain ⟨piece, refuses, same⟩ := ((select_grammar _).2.1 _).mp refused
    injection same with same
    rwa [same, String.toList_ofList]
  · refine (select_grammar " none").2.2 (by decide) (by decide) _ cut ?_
    exact ⟨_, List.mem_cons_self, "none", by decide, [' '], [], rfl,
      List.forall_mem_singleton.mpr (by decide), List.forall_mem_nil _⟩

end Brainfuck.Pass
