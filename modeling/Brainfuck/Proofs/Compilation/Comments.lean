import Brainfuck.Compilation
import Brainfuck.Proofs.Pass.Selection
import Brainfuck.Proofs.Source.Marks

/-!
Comments say nothing. Two programs whose instructions are the same, at places that come in the same
order, are cut, merged and written alike, and refused alike, at corresponding places. Taking the
comments out of a text moves its symbols in this way: the k-th symbol moves to the offset k. So a
text compiles to what its symbols alone compile to, and is refused for the same reason
(`compile_strip`).
-/

namespace Brainfuck

/-! ### Programs at other places -/

section Moving

variable {r : Nat → Nat → Prop}

/-- The relation pairs places in order. -/
structure KeepsOrder (r : Nat → Nat → Prop) : Prop where
  le_iff {a a' b b' : Nat} : r a a' → r b b' → (a ≤ b ↔ a' ≤ b')

theorem KeepsOrder.min (order : KeepsOrder r) {a a' b b' : Nat} (first : r a a')
    (second : r b b') : r (min a b) (min a' b') := by
  rcases Nat.le_total a b with le | le
  · rw [Nat.min_eq_left le, Nat.min_eq_left ((order.le_iff first second).mp le)]
    exact first
  · rw [Nat.min_eq_right le, Nat.min_eq_right ((order.le_iff second first).mp le)]
    exact second

theorem KeepsOrder.max (order : KeepsOrder r) {a a' b b' : Nat} (first : r a a')
    (second : r b b') : r (max a b) (max a' b') := by
  rcases Nat.le_total a b with le | le
  · rw [Nat.max_eq_right le, Nat.max_eq_right ((order.le_iff first second).mp le)]
    exact second
  · rw [Nat.max_eq_left le, Nat.max_eq_left ((order.le_iff second first).mp le)]
    exact first

/-- Both ends of a span have been moved. -/
structure Span.Moved (r : Nat → Nat → Prop) (before after : Span) : Prop where
  start : r before.start after.start
  stop : r before.stop after.stop

theorem Span.Moved.cover (order : KeepsOrder r) {s s' t t' : Span} (first : s.Moved r s')
    (second : t.Moved r t') : (s.cover t).Moved r (s'.cover t') :=
  ⟨order.min first.start second.start, order.max first.stop second.stop⟩

/-- The instruction is the same, and its span has been moved. -/
inductive Instruction.Moved (r : Nat → Nat → Prop) : Instruction → Instruction → Prop where
  | intro {s t : Span} (symbol : Symbol) (count : UInt32) (moved : s.Moved r t) :
      Moved r (.ofSymbol symbol count s) (.ofSymbol symbol count t)

namespace Instruction.Moved

variable {i j : Instruction}

theorem symbol_eq (moved : i.Moved r j) : i.symbol = j.symbol := by
  cases moved with
  | intro symbol count moved => rw [symbol_ofSymbol, symbol_ofSymbol]

theorem count_eq (moved : i.Moved r j) : i.count = j.count := by
  cases moved with
  | intro symbol count moved => cases symbol <;> rfl

theorem span (moved : i.Moved r j) : i.span.Moved r j.span := by
  cases moved with
  | intro symbol count moved =>
      rw [span_ofSymbol, span_ofSymbol]
      exact moved

end Instruction.Moved

/-- The failure is the same, and the span that it names has been moved. -/
inductive Error.Moved (r : Nat → Nat → Prop) : Error → Error → Prop where
  | unknownPass (name : String) : Moved r (.unknownPass name) (.unknownPass name)
  | runLengthOverflow {s t : Span} (symbol : Char) (moved : s.Moved r t) :
      Moved r (.runLengthOverflow symbol s) (.runLengthOverflow symbol t)
  | unbalancedLoop {s t : Span} (moved : s.Moved r t) :
      Moved r (.unbalancedLoop s) (.unbalancedLoop t)

theorem Span.Moved.unique (unique : Relator.RightUnique r) {s t t' : Span} (first : s.Moved r t)
    (second : s.Moved r t') : t = t' := by
  obtain ⟨start, stop⟩ := t
  obtain ⟨start', stop'⟩ := t'
  obtain rfl : start = start' := unique first.start second.start
  obtain rfl : stop = stop' := unique first.stop second.stop
  rfl

theorem Error.Moved.unique (unique : Relator.RightUnique r) {e e' e'' : Error}
    (first : e.Moved r e') (second : e.Moved r e'') : e' = e'' := by
  cases first with
  | unknownPass name =>
      cases second
      rfl
  | runLengthOverflow symbol moved =>
      cases second with
      | runLengthOverflow _ moved' => rw [moved.unique unique moved']
  | unbalancedLoop moved =>
      cases second with
      | unbalancedLoop moved' => rw [moved.unique unique moved']

/-! ### Collapsing -/

namespace RunLength

/-- The sums are equal, and the span has been moved. -/
structure Sum.Moved (r : Nat → Nat → Prop) (before after : Sum) : Prop where
  count : before.count = after.count
  span : before.span.Moved r after.span

theorem Sum.Moved.add (order : KeepsOrder r) (action : Action) {a b : Sum} {i j : Instruction}
    (sums : a.Moved r b) (next : i.Moved r j) :
    Agree (Error.Moved r) (Sum.Moved r) (a.add action i) (b.add action j) := by
  have covered := sums.span.cover order next.span
  unfold Sum.add
  rw [sums.count, next.count_eq]
  by_cases fits : b.count.toNat + j.count.toNat < UInt32.size
  · rw [if_pos fits, if_pos fits]
    exact .ok ⟨rfl, covered⟩
  · rw [if_neg fits, if_neg fits]
    exact .error (.runLengthOverflow _ covered)

theorem agree_mergeBlock (order : KeepsOrder r) {block block' : List Instruction}
    (moved : List.Forall₂ (Instruction.Moved r) block block') :
    Agree (Error.Moved r) (List.Forall₂ (Instruction.Moved r)) (mergeBlock block)
      (mergeBlock block') := by
  cases moved with
  | nil => exact .ok .nil
  | cons first rest =>
      cases first with
      | @intro s t symbol count span =>
          cases symbol with
          | act action =>
              have first : Sum.Moved r ⟨count, s⟩ ⟨count, t⟩ := ⟨rfl, span⟩
              have step (a b : Sum) (i j : Instruction) (sums : a.Moved r b) (next : i.Moved r j) :=
                sums.add order action next
              refine (Agree.foldlM step rest first).bind fun sum sum' same => ?_
              rw [same.count]
              exact .ok (.cons (.intro (.act action) _ same.span) .nil)
          | output => exact .ok (.cons (.intro .output count span) rest)
          | input => exact .ok (.cons (.intro .input count span) rest)
          | loopStart => exact .ok (.cons (.intro .loopStart count span) rest)
          | loopEnd => exact .ok (.cons (.intro .loopEnd count span) rest)

theorem agree_collapse (order : KeepsOrder r) {xs ys : List Instruction}
    (moved : List.Forall₂ (Instruction.Moved r) xs ys) :
    Agree (Error.Moved r) (List.Forall₂ (Instruction.Moved r)) (collapse xs) (collapse ys) := by
  have cut : List.Forall₂ (List.Forall₂ (Instruction.Moved r)) (blocks xs) (blocks ys) :=
    forall₂_splitBy (fun first second => by rw [first.symbol_eq, second.symbol_eq]) moved
  have merged := Agree.mapM (fun _ _ moved => agree_mergeBlock order moved) cut
  exact merged.bind fun groups groups' related => .ok (List.rel_flatten related)

end RunLength

/-! ### Writing -/

namespace Emission

/-- The lines are the same, and the spans of the open loops have been moved. -/
structure Listing.Moved (r : Nat → Nat → Prop) (before after : Listing) : Prop where
  indentWidth : before.indentWidth = after.indentWidth
  openLoops : List.Forall₂ (Span.Moved r) before.openLoops after.openLoops
  lines : before.lines = after.lines

theorem Listing.Moved.write {a b : Listing} (moved : a.Moved r b) (statement : String) :
    (a.write statement).Moved r (b.write statement) := by
  have margin : a.margin = b.margin := by
    rw [Listing.margin, Listing.margin, Listing.depth, Listing.depth, moved.indentWidth,
      moved.openLoops.length_eq]
  refine ⟨moved.indentWidth, moved.openLoops, ?_⟩
  rw [Listing.write, Listing.write, margin, moved.lines]

theorem Listing.Moved.append {a b : Listing} {i j : Instruction} (moved : a.Moved r b)
    (next : i.Moved r j) :
    Agree (Error.Moved r) (Listing.Moved r) (a.append i) (b.append j) := by
  cases next with
  | intro symbol count span =>
      cases symbol with
      | act action => exact .ok (moved.write _)
      | output => exact .ok (moved.write _)
      | input => exact .ok (moved.write _)
      | loopStart =>
          have written := moved.write "while (tape.read() != 0) \x7b"
          exact .ok ⟨written.indentWidth, .cons span written.openLoops, written.lines⟩
      | loopEnd =>
          obtain ⟨indentWidth, openLoops, lines⟩ := a
          obtain ⟨indentWidth', openLoops', lines'⟩ := b
          obtain ⟨width, loops, same⟩ := moved
          cases loops with
          | nil => exact .error (.unbalancedLoop span)
          | @cons _ _ outer outer' innermost others =>
              have left : Listing.Moved r ⟨indentWidth, outer, lines⟩
                  ⟨indentWidth', outer', lines'⟩ := ⟨width, others, same⟩
              exact .ok (left.write "\x7d")

theorem Listing.Moved.close {a b : Listing} (moved : a.Moved r b) :
    Agree (Error.Moved r) Eq a.close b.close := by
  obtain ⟨indentWidth, openLoops, lines⟩ := a
  obtain ⟨indentWidth', openLoops', lines'⟩ := b
  obtain ⟨width, loops, same⟩ := moved
  cases loops with
  | nil => exact .ok same
  | cons innermost outer => exact .error (.unbalancedLoop innermost)

theorem agree_generate (layout : Layout) {xs ys : List Instruction}
    (moved : List.Forall₂ (Instruction.Moved r) xs ys) :
    Agree (Error.Moved r) Eq (layout.generate xs) (layout.generate ys) := by
  have start : Listing.Moved r { indentWidth := layout.indentWidth }
      { indentWidth := layout.indentWidth } := ⟨rfl, .nil, rfl⟩
  have step (a b : Listing) (i j : Instruction) (listings : a.Moved r b) (next : i.Moved r j) :=
    listings.append next
  have statements := (Agree.foldlM step moved start).bind fun _ _ last => last.close
  exact statements.map fun _ _ => congrArg layout.enclose

end Emission

end Moving

/-! ### Texts without comments -/

namespace Source

/-- The symbol with `place` symbols before it stands at the byte `offset`. -/
def OffsetOf (text : String) (place offset : Nat) : Prop :=
  (marks text)[place]?.map Mark.offset = some offset

theorem rightUnique_offsetOf (text : String) : Relator.RightUnique (OffsetOf text) := by
  intro place offset offset' first second
  exact Option.some.inj (first.symm.trans second)

theorem keepsOrder_offsetOf (text : String) : KeepsOrder (OffsetOf text) := by
  have ordered := List.pairwise_iff_getElem.mp (pairwise_marks text)
  constructor
  intro a a' b b' first second
  obtain ⟨mark, at_a, rfl⟩ := Option.map_eq_some_iff.mp first
  obtain ⟨mark', at_b, rfl⟩ := Option.map_eq_some_iff.mp second
  obtain ⟨within_a, rfl⟩ := List.getElem?_eq_some_iff.mp at_a
  obtain ⟨within_b, rfl⟩ := List.getElem?_eq_some_iff.mp at_b
  constructor
  · intro le
    rcases Nat.lt_or_eq_of_le le with lt | rfl
    · exact Nat.le_of_lt (ordered a b within_a within_b lt)
    · exact Nat.le_refl _
  · intro le
    by_contra behind
    have lt := ordered b a within_b within_a (Nat.lt_of_not_le behind)
    exact Nat.not_lt_of_le le lt

/-- Taking the comments out moves the k-th symbol to the offset k. -/
theorem moved_strip (text : String) :
    List.Forall₂ (Instruction.Moved (OffsetOf text)) (parse (ofText (strip text)))
      (parse (ofText text)) := by
  rw [parse_ofText, parse_ofText, marks_strip, List.map_map]
  conv => right; rw [← List.zipIdx_map_fst 0 (marks text)]
  rw [List.map_map, List.forall₂_map_left_iff, List.forall₂_map_right_iff, List.forall₂_same]
  rintro ⟨mark, place⟩ member
  have found : OffsetOf text place mark.offset :=
    congrArg (Option.map Mark.offset) (List.mem_zipIdx_iff_getElem?.mp member)
  exact .intro mark.symbol 1 ⟨found, found⟩

end Source

theorem agree_compile_strip (source selection : String) :
    Agree (Error.Moved (Source.OffsetOf source)) Eq (compile (Source.strip source) selection)
      (compile source selection) := by
  have order := Source.keepsOrder_offsetOf source
  have moved := Source.moved_strip source
  unfold compile
  cases known : Pass.firstUnknown? selection with
  | some name =>
      rw [Pass.select_of_unknown known]
      exact .error (.unknownPass name)
  | none =>
      obtain ⟨count, selected, -⟩ := Pass.select_of_known known
      have run := Pass.runAll_of_select selected
      rw [selected]
      change Agree _ _ (Pass.runAll _ _ >>= _) (Pass.runAll _ _ >>= _)
      rw [run, run]
      by_cases isNone : selection = "none"
      · rw [if_pos isNone, if_pos isNone]
        exact Emission.agree_generate {} moved
      · rw [if_neg isNone, if_neg isNone]
        exact (RunLength.agree_collapse order moved).bind fun _ _ => Emission.agree_generate {}

/-- A text compiles to what it compiles to without its comments. It is refused if and only if it is
refused without them, for the same reason; in the spans that the two failures name, a place among
the symbols alone becomes the byte offset of this symbol in the text. -/
theorem compile_strip (source selection : String) :
    (∀ code, compile source selection = .ok code ↔
      compile (Source.strip source) selection = .ok code) ∧
    ∀ e', compile source selection = .error e' ↔
      ∃ e, compile (Source.strip source) selection = .error e ∧
        e.Moved (Source.OffsetOf source) e' := by
  have agree := agree_compile_strip source selection
  generalize compile (Source.strip source) selection = stripped at agree
  generalize compile source selection = commented at agree
  cases agree with
  | ok same =>
      subst same
      exact ⟨fun _ => Iff.rfl, fun _ => ⟨nofun, nofun⟩⟩
  | @error e found moved =>
      refine ⟨fun _ => ⟨nofun, nofun⟩, fun e' => ⟨?_, ?_⟩⟩
      · intro same
        cases same
        exact ⟨e, rfl, moved⟩
      · rintro ⟨_, same, moved'⟩
        cases same
        rw [moved.unique (Source.rightUnique_offsetOf source) moved']

end Brainfuck
