import Brainfuck.Proofs.Path.Alike

/-!
File names and their extensions. The file name of a path is its last piece that says something
(`last?_of_split?`), and paths whose last pieces differ are never spelled alike
(`alike_of_last?_ne`). Another extension gives another file name in the same directory
(`withExtension_eq`, `split?_append`).
-/

namespace Brainfuck.Path

variable {before name stem extension : List Char} {path new : String}

/-! ### Cutting behind the last separator -/

/-- What can stand before the part behind the last `separator`: nothing, or what ends in one. -/
def IsFront (separator : Char) (front : List Char) : Prop :=
  front = [] ∨ ∃ rest, front = rest ++ [separator]

section Cuts

variable {separator : Char} {front last : List Char}

theorem takeWhile_reverse (isFront : IsFront separator front) (free : separator ∉ last) :
    (front ++ last).reverse.takeWhile (· != separator) = last.reverse := by
  have others : ∀ c ∈ last.reverse, (c != separator) = true := by
    intro c member
    rw [bne_iff_ne]
    rintro rfl
    exact free (List.mem_reverse.mp member)
  rw [List.reverse_append, List.takeWhile_append_of_pos others]
  rcases isFront with rfl | ⟨rest, rfl⟩
  · exact List.append_nil _
  · rw [List.reverse_append, List.reverse_singleton, List.singleton_append,
      List.takeWhile_cons_of_neg (by simp), List.append_nil]

theorem dropWhile_reverse (isFront : IsFront separator front) (free : separator ∉ last) :
    (front ++ last).reverse.dropWhile (· != separator) = front.reverse := by
  have all := List.takeWhile_append_dropWhile (p := (· != separator))
    (l := (front ++ last).reverse)
  rw [takeWhile_reverse isFront free, List.reverse_append, List.append_cancel_left_eq] at all
  rw [List.reverse_append]
  exact all

theorem exists_cut (separator : Char) (text : List Char) :
    ∃ front last, text = front ++ last ∧ IsFront separator front ∧ separator ∉ last := by
  induction text with
  | nil => exact ⟨[], [], rfl, .inl rfl, List.not_mem_nil⟩
  | cons c rest ih =>
      obtain ⟨front, last, rfl, isFront, free⟩ := ih
      rcases isFront with rfl | ⟨front, rfl⟩
      · by_cases here : separator = c
        · exact ⟨[c], last, rfl, .inr ⟨[], here ▸ rfl⟩, free⟩
        · refine ⟨[], c :: last, rfl, .inl rfl, ?_⟩
          rw [List.mem_cons, not_or]
          exact ⟨here, free⟩
      · exact ⟨c :: front ++ [separator], last, by simp, .inr ⟨c :: front, rfl⟩, free⟩

end Cuts

/-! ### Pieces behind the last slash -/

/-- The pieces of a text that say something. -/
def significant (text : List Char) : List (List Char) :=
  (text.splitOn '/').filter fun piece => piece != [] && piece != ['.']

theorem reduced_ofList (text : List Char) : reduced (String.ofList text) = significant text := by
  rw [reduced, pieces, String.toList_ofList]
  rfl

theorem significant_append (a b : List Char) :
    significant (a ++ '/' :: b) = significant a ++ significant b := by
  rw [significant, List.splitOn_append_cons_self, List.filter_append]
  rfl

/-- A name that a file can have: no slash in it, and neither nothing nor one of the dots. -/
structure IsFileName (name : List Char) : Prop where
  noSlash : '/' ∉ name
  nonempty : name ≠ []
  noDot : name ≠ ['.']
  noParent : name ≠ ['.', '.']

theorem isFileName_of_length (noSlash : '/' ∉ name) (long : 2 < name.length) : IsFileName name := by
  refine ⟨noSlash, ?_, ?_, ?_⟩ <;>
  · rintro rfl
    simp at long

/-- The last piece that says something stands behind the last slash, unless that is nothing or a
dot. -/
theorem getLast?_significant (isFront : IsFront '/' before) (noSlash : '/' ∉ name)
    (nonempty : name ≠ []) (noDot : name ≠ ['.']) :
    (significant (before ++ name)).getLast? = some name := by
  have single : significant name = [name] := by
    rw [significant, List.splitOn_eq_singleton noSlash, List.filter_cons_of_pos, List.filter_nil]
    simp [nonempty, noDot]
  rcases isFront with rfl | ⟨directory, rfl⟩
  · rw [List.nil_append, single]
    rfl
  · rw [List.append_assoc, List.singleton_append, significant_append, single, List.getLast?_concat]

/-- Slashes and single dots at the end say nothing. -/
theorem significant_dropIdleEnd (reversed : List Char) :
    significant (dropIdleEnd reversed).reverse = significant reversed.reverse := by
  fun_induction dropIdleEnd reversed with
  | case1 rest ih =>
      rw [ih, List.reverse_cons, significant_append]
      exact (List.append_nil _).symm
  | case2 rest ih =>
      have dotted : ('.' :: '/' :: rest).reverse = rest.reverse ++ '/' :: ['.'] := by simp
      rw [ih, List.reverse_cons, dotted, significant_append, significant_append]
      rfl
  | case3 => rfl

/-! ### Cutting a path around its file name -/

theorem split?_eq_some {s : Split} (split : split? path = some s) :
    IsFront '/' s.before ∧ IsFileName s.name ∧
      reduced path = significant (s.before ++ s.name) := by
  obtain ⟨before, name, kept, isFront, noSlash⟩ :=
    exists_cut '/' (dropIdleEnd path.toList.reverse).reverse
  rw [List.reverse_eq_iff] at kept
  rw [split?] at split
  simp only [kept, takeWhile_reverse isFront noSlash, dropWhile_reverse isFront noSlash,
    List.reverse_reverse] at split
  split at split
  · cases split
  · rename_i fileName
    simp only [Bool.or_eq_true, decide_eq_true_eq, not_or] at fileName
    cases split
    refine ⟨isFront, ⟨noSlash, fileName.1.1, fileName.1.2, fileName.2⟩, ?_⟩
    have idle := significant_dropIdleEnd path.toList.reverse
    rw [kept, List.reverse_reverse, List.reverse_reverse] at idle
    exact idle.symm

theorem dropIdleEnd_of_isFileName (fileName : IsFileName name) (before : List Char) :
    dropIdleEnd (before ++ name).reverse = (before ++ name).reverse := by
  have head : ∀ c ∈ name.reverse, c ≠ '/' := by
    rintro c member rfl
    exact fileName.noSlash (List.mem_reverse.mp member)
  have nonempty : name.reverse ≠ [] :=
    fun empty => fileName.nonempty (List.reverse_eq_nil_iff.mp empty)
  have noDot : name.reverse ≠ ['.'] := fun dot => fileName.noDot (List.reverse_eq_iff.mp dot)
  rw [List.reverse_append]
  generalize name.reverse = reversed at head nonempty noDot
  refine dropIdleEnd.eq_3 _ ?_ ?_
  · intro rest slash
    cases reversed with
    | nil => exact nonempty rfl
    | cons c others =>
        cases slash
        exact head '/' List.mem_cons_self rfl
  · intro rest dotted
    cases reversed with
    | nil => exact nonempty rfl
    | cons c others =>
        cases others with
        | nil =>
            rw [(List.cons.inj dotted).1] at noDot
            exact noDot rfl
        | cons d others =>
            cases dotted
            exact head '/' (by simp) rfl

theorem split?_append (isFront : IsFront '/' before) (fileName : IsFileName name) :
    split? (String.ofList (before ++ name)) = some ⟨before, name, []⟩ := by
  rw [split?]
  simp only [String.toList_ofList, dropIdleEnd_of_isFileName fileName,
    takeWhile_reverse isFront fileName.noSlash, dropWhile_reverse isFront fileName.noSlash,
    List.reverse_reverse, Nat.sub_self, List.take_zero, List.reverse_nil]
  rw [if_neg]
  simp [fileName.nonempty, fileName.noDot, fileName.noParent]

/-- The last piece that says something. -/
def last? (path : String) : Option (List Char) :=
  (reduced path).getLast?

theorem last?_append (isFront : IsFront '/' before) (noSlash : '/' ∉ name) (nonempty : name ≠ [])
    (noDot : name ≠ ['.']) : last? (String.ofList (before ++ name)) = some name := by
  rw [last?, reduced_ofList, getLast?_significant isFront noSlash nonempty noDot]

theorem last?_of_split? {s : Split} (split : split? path = some s) : last? path = some s.name := by
  obtain ⟨isFront, fileName, reduced⟩ := split?_eq_some split
  rw [last?, reduced,
    getLast?_significant isFront fileName.noSlash fileName.nonempty fileName.noDot]

theorem alike_of_last?_ne {a b : String} (other : last? a ≠ last? b) : alike a b = false := by
  rw [Bool.eq_false_iff]
  intro same
  rw [last?, last?, (alike_iff.mp same).2] at other
  exact other rfl

/-! ### Extensions -/

theorem stemAndExtension_eq_some_iff : stemAndExtension name = (stem, some extension) ↔
    name = stem ++ '.' :: extension ∧ stem ≠ [] ∧ '.' ∉ extension := by
  constructor
  · intro cut
    obtain ⟨front, last, rfl, isFront, free⟩ := exists_cut '.' name
    rw [stemAndExtension] at cut
    simp only [takeWhile_reverse isFront free, dropWhile_reverse isFront free,
      List.reverse_reverse] at cut
    split at cut
    · cases cut
    · cases cut
    · rename_i c reversed plain spelled
      cases cut
      rw [List.reverse_eq_iff, List.reverse_cons] at spelled
      subst spelled
      rcases isFront with none | ⟨rest, ends⟩
      · simp at none
      · obtain ⟨rfl, last⟩ := List.append_inj' ends rfl
        cases last
        refine ⟨by simp, ?_, free⟩
        rw [ne_eq, List.reverse_eq_nil_iff]
        exact plain rfl
  · rintro ⟨rfl, nonempty, free⟩
    have cut : stem ++ '.' :: extension = (stem ++ ['.']) ++ extension := by simp
    have isFront : IsFront '.' (stem ++ ['.']) := .inr ⟨stem, rfl⟩
    rw [stemAndExtension, cut]
    simp only [takeWhile_reverse isFront free, dropWhile_reverse isFront free,
      List.reverse_reverse]
    rw [List.reverse_append, List.reverse_singleton, List.singleton_append]
    split
    · contradiction
    · rename_i spelled
      cases stem with
      | nil => exact absurd rfl nonempty
      | cons c rest => simp at spelled
    · rename_i spelled
      cases spelled
      rw [List.reverse_reverse]

theorem eq_of_stemAndExtension_none (cut : stemAndExtension name = (stem, none)) :
    stem = name := by
  rw [stemAndExtension] at cut
  simp only at cut
  split at cut
  · cases cut
    rfl
  · cases cut
    rfl
  · cases cut

/-- What an extension adds to a stem. -/
def suffix (extension : String) : List Char :=
  if extension.isEmpty then [] else '.' :: extension.toList

/-- Another extension is put behind the stem, in the same directory. -/
theorem withExtension_eq {s : Split} {old : Option (List Char)} (split : split? path = some s)
    (cut : stemAndExtension s.name = (stem, old)) (regular : stem ≠ ['.'] ∨ s.idleEnd ≠ []) :
    withExtension path new = String.ofList (s.before ++ (stem ++ suffix new)) := by
  have noStep : ¬(stem = ['.'] && old.isSome && s.idleEnd = []) = true := by
    rintro step
    simp only [Bool.and_eq_true, decide_eq_true_eq] at step
    rcases regular with other | idle
    · exact other step.1.1
    · exact idle step.2
  rw [withExtension, split]
  simp only [cut, if_neg noStep]
  rw [List.append_assoc, suffix]

/-- A name such as `..a` is cut to that of the parent directory. -/
theorem withExtension_eq_parent {s : Split} (split : split? path = some s)
    (cut : stemAndExtension s.name = (['.'], some extension)) (ends : s.idleEnd = []) :
    withExtension path new = String.ofList (s.before ++ ['.', '.']) := by
  rw [withExtension, split]
  simp only [cut, ends, Option.isSome_some, decide_true, Bool.and_self, if_true,
    List.append_assoc]
  rfl

theorem stem_of_isFileName {old : Option (List Char)} (fileName : IsFileName name)
    (cut : stemAndExtension name = (stem, old)) : '/' ∉ stem ∧ stem ≠ [] := by
  cases old with
  | none =>
      rw [eq_of_stemAndExtension_none cut]
      exact ⟨fileName.noSlash, fileName.nonempty⟩
  | some extension =>
      obtain ⟨rfl, nonempty, -⟩ := stemAndExtension_eq_some_iff.mp cut
      exact ⟨fun member => fileName.noSlash (List.mem_append_left _ member), nonempty⟩

theorem split?_withExtension {s : Split} {old : Option (List Char)} (split : split? path = some s)
    (cut : stemAndExtension s.name = (stem, old)) (regular : stem ≠ ['.'] ∨ s.idleEnd ≠ [])
    (noSlash : '/' ∉ suffix new) (long : 2 < (suffix new).length) :
    split? (withExtension path new) = some ⟨s.before, stem ++ suffix new, []⟩ := by
  obtain ⟨isFront, fileName, -⟩ := split?_eq_some split
  rw [withExtension_eq split cut regular]
  refine split?_append isFront (isFileName_of_length ?_ ?_)
  · rw [List.mem_append, not_or]
    exact ⟨(stem_of_isFileName fileName cut).1, noSlash⟩
  · rw [List.length_append]
    exact Nat.lt_add_left stem.length long

theorem last?_withExtension {s : Split} {old : Option (List Char)} (split : split? path = some s)
    (cut : stemAndExtension s.name = (stem, old)) (regular : stem ≠ ['.'])
    (noSlash : '/' ∉ suffix new) : last? (withExtension path new) = some (stem ++ suffix new) := by
  obtain ⟨isFront, fileName, -⟩ := split?_eq_some split
  obtain ⟨stemNoSlash, nonempty⟩ := stem_of_isFileName fileName cut
  rw [withExtension_eq split cut (.inl regular)]
  refine last?_append isFront ?_ ?_ ?_
  · rw [List.mem_append, not_or]
    exact ⟨stemNoSlash, noSlash⟩
  · exact List.append_ne_nil_of_left_ne_nil nonempty _
  · rw [ne_eq, List.append_eq_singleton_iff]
    rintro (⟨empty, -⟩ | ⟨dot, -⟩)
    · exact nonempty empty
    · exact regular dot

end Brainfuck.Path
