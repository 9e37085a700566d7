import Brainfuck.Proofs.Pass.Selection
import Brainfuck.Proofs.RunLength.Runs

/-!
The spans of a program and its source. Every instruction stands for a segment of the source's
marks: it counts them, and spans from the first to the last. Reading starts with one mark each, and
collapsing joins the segments of a run. The segments together are all marks in order, so the spans
are in order too, share no byte, and leave no symbol out (`partitioned_of_runAll`).
-/

namespace Brainfuck

/-- The place is one of those from the span's first to its last. -/
def Span.Holds (span : Span) (place : Nat) : Prop :=
  span.start ≤ place ∧ place ≤ span.stop

instance (span : Span) (place : Nat) : Decidable (span.Holds place) :=
  inferInstanceAs (Decidable (_ ∧ _))

namespace Source

/-- The bytes of a span. -/
def excerpt (bytes : List UInt8) (span : Span) : List UInt8 :=
  (bytes.take (span.stop + 1)).drop span.start

/-- The spans of a program divide the symbols among some bytes. -/
structure Partitioned (bytes : List UInt8) (program : List Instruction) : Prop where
  /-- Each span ends before the next ones start. -/
  apart : program.Pairwise fun i j => i.span.stop < j.span.start
  within : ∀ i ∈ program, i.span.start ≤ i.span.stop ∧ i.span.stop < bytes.length
  ends : ∀ i ∈ program, symbolAt? bytes i.span.start = some i.symbol ∧
    symbolAt? bytes i.span.stop = some i.symbol
  /-- The symbols in a span are the instruction's own, as many as it counts. -/
  counted : ∀ i ∈ program, (excerpt bytes i.span).filterMap symbolOfByte? =
    List.replicate i.count.toNat i.symbol
  /-- Each symbol lies in one span, and in no other. -/
  covered : ∀ place symbol, symbolAt? bytes place = some symbol →
    ∃! index : Nat, ∃ i : Instruction, program[index]? = some i ∧ i.span.Holds place

/-! ### Segments -/

/-- An instruction stands for the marks of a segment. -/
structure Stands (segment : List Mark) (i : Instruction) : Prop where
  nonempty : segment ≠ []
  alike : ∀ mark ∈ segment, mark.symbol = i.symbol
  count : i.count.toNat = segment.length
  start : i.span.start = (segment.head nonempty).offset
  stop : i.span.stop = (segment.getLast nonempty).offset

theorem stands_instruction (mark : Mark) : Stands [mark] mark.instruction := by
  refine ⟨List.cons_ne_nil _ _, fun other member => ?_, ?_, ?_, ?_⟩
  · rw [List.mem_singleton.mp member, Mark.symbol_instruction]
  · exact congrArg UInt32.toNat (RunLength.count_unit mark.offset)
  · exact congrArg Span.start (Instruction.span_ofSymbol ..)
  · exact congrArg Span.stop (Instruction.span_ofSymbol ..)

theorem forall₂_singletons (ms : List Mark) :
    List.Forall₂ Stands (ms.map fun mark => [mark]) (ms.map Mark.instruction) := by
  rw [List.forall₂_map_left_iff, List.forall₂_map_right_iff, List.forall₂_same]
  exact fun mark member => stands_instruction mark

theorem flatten_singletons (ms : List Mark) : (ms.map fun mark => [mark]).flatten = ms := by
  induction ms with
  | nil => rfl
  | cons mark rest ih => exact congrArg (mark :: ·) ih

/-- What is left of a run stands for the marks of the run. -/
theorem exists_segments_merged {ms run : List Mark}
    (ordered : ms.Pairwise fun a b => a.offset < b.offset) (member : run ∈ RunLength.runs ms)
    (fits : RunLength.tooLong run = false) :
    ∃ segments, segments.flatten = run ∧ List.Forall₂ Stands segments (RunLength.merged run) := by
  have remains := RunLength.remains_merged ordered member fits
  generalize RunLength.merged run = group at remains
  cases remains with
  | @counted first rest action increasing within =>
      refine ⟨[(first :: rest).map (Mark.mk (.act action))], List.append_nil _, .cons ?_ .nil⟩
      refine ⟨by simp, fun mark inside => ?_, ?_, rfl, ?_⟩
      · obtain ⟨offset, -, rfl⟩ := List.mem_map.mp inside
        rfl
      · rw [List.length_map]
        exact UInt32.toNat_ofNat_of_lt' within
      · rw [List.getLast_map]
        rfl
  | kept first rest other => exact ⟨_, flatten_singletons _, forall₂_singletons _⟩

theorem exists_segments_flatMap {runs : List (List Mark)}
    (each : ∀ run ∈ runs, ∃ segments, segments.flatten = run ∧
      List.Forall₂ Stands segments (RunLength.merged run)) :
    ∃ segments, segments.flatten = runs.flatten ∧
      List.Forall₂ Stands segments (runs.flatMap RunLength.merged) := by
  induction runs with
  | nil => exact ⟨[], rfl, .nil⟩
  | cons run rest ih =>
      obtain ⟨first, whole, stands⟩ := each run List.mem_cons_self
      obtain ⟨others, whole', stands'⟩ := ih fun other member => each other (.tail _ member)
      refine ⟨first ++ others, ?_, ?_⟩
      · rw [List.flatten_append, List.flatten_cons, whole, whole']
      · rw [List.flatMap_cons]
        exact List.rel_append stands stands'

/-- Collapsing leaves instructions that stand for all marks, in order. -/
theorem exists_segments_collapse {ms : List Mark} {program : List Instruction}
    (ordered : ms.Pairwise fun a b => a.offset < b.offset)
    (collapsed : RunLength.collapse (ms.map Mark.instruction) = .ok program) :
    ∃ segments, segments.flatten = ms ∧ List.Forall₂ Stands segments program := by
  cases long : RunLength.tooLong? ms with
  | some run =>
      obtain ⟨first, last, -, -, failed⟩ := RunLength.collapse_marks_of_tooLong ordered long
      rw [failed] at collapsed
      cases collapsed
  | none =>
      rw [RunLength.collapse_marks ordered long] at collapsed
      cases collapsed
      have each (run) (member : run ∈ RunLength.runs ms) :=
        exists_segments_merged ordered member
          (Bool.eq_false_iff.mpr (List.find?_eq_none.mp long run member))
      obtain ⟨segments, whole, stands⟩ := exists_segments_flatMap each
      exact ⟨segments, whole.trans (RunLength.flatten_runs ms), stands⟩

/-- After the passes of an accepted selection, the instructions stand for all marks, in order. -/
theorem exists_segments {bytes : List UInt8} {selection : String} {passes : List Pass}
    {program : List Instruction} (selected : Pass.select selection = .ok passes)
    (ran : Pass.runAll passes (parse bytes) = .ok program) :
    ∃ segments, segments.flatten = scan bytes ∧ List.Forall₂ Stands segments program := by
  rw [Pass.runAll_of_select selected, parse_eq_scan] at ran
  by_cases isNone : selection = "none"
  · rw [if_pos isNone] at ran
    cases ran
    exact ⟨_, flatten_singletons _, forall₂_singletons _⟩
  · rw [if_neg isNone] at ran
    exact exists_segments_collapse (pairwise_scan bytes) ran

/-! ### Spans -/

theorem filter_between {p : Mark → Bool} {front segment back : List Mark}
    (before : ∀ mark ∈ front, p mark = false) (inside : ∀ mark ∈ segment, p mark = true)
    (after : ∀ mark ∈ back, p mark = false) :
    (front ++ (segment ++ back)).filter p = segment := by
  have noneBefore : front.filter p = [] :=
    List.filter_eq_nil_iff.mpr fun mark member => Bool.eq_false_iff.mp (before mark member)
  have noneAfter : back.filter p = [] :=
    List.filter_eq_nil_iff.mpr fun mark member => Bool.eq_false_iff.mp (after mark member)
  rw [List.filter_append, List.filter_append, noneBefore, noneAfter,
    List.filter_eq_self.mpr inside, List.append_nil, List.nil_append]

section Segment

variable {front segment back : List Mark} {i : Instruction}

/-- The marks of a segment lie in the span of the instruction that stands for it. -/
theorem Stands.holds (stands : Stands segment i)
    (ordered : segment.Pairwise fun a b => a.offset < b.offset) :
    ∀ mark ∈ segment, i.span.Holds mark.offset := by
  intro mark member
  have weak : segment.Pairwise fun a b => a.offset ≤ b.offset :=
    ordered.imp fun lt => Nat.le_of_lt lt
  have : Std.Refl fun a b : Mark => a.offset ≤ b.offset := ⟨fun a => Nat.le_refl a.offset⟩
  rw [Span.Holds, stands.start, stands.stop]
  exact ⟨weak.rel_head member, weak.rel_getLast member⟩

theorem Stands.le (stands : Stands segment i)
    (ordered : segment.Pairwise fun a b => a.offset < b.offset) : i.span.start ≤ i.span.stop := by
  rw [stands.start]
  exact (stands.holds ordered _ (List.head_mem stands.nonempty)).2

/-- Among marks in order, those in the span of an instruction are the ones it stands for. -/
theorem Stands.filter_holds (stands : Stands segment i)
    (ordered : (front ++ (segment ++ back)).Pairwise fun a b => a.offset < b.offset) :
    (front ++ (segment ++ back)).filter (fun mark => i.span.Holds mark.offset) = segment := by
  obtain ⟨-, behind, before⟩ := List.pairwise_append.mp ordered
  obtain ⟨inner, -, after⟩ := List.pairwise_append.mp behind
  apply filter_between
  · intro mark member
    have lt := before mark member _ (List.mem_append_left back (List.head_mem stands.nonempty))
    rw [← stands.start] at lt
    exact decide_eq_false fun holds => Nat.not_lt_of_le holds.1 lt
  · intro mark member
    exact decide_eq_true (stands.holds inner mark member)
  · intro mark member
    have lt := after _ (List.getLast_mem stands.nonempty) mark member
    rw [← stands.stop] at lt
    exact decide_eq_false fun holds => Nat.not_lt_of_le holds.2 lt

end Segment

/-- Scanning the bytes of a span finds the marks in the span. -/
theorem scanFrom_excerpt {bytes : List UInt8} {span : Span} (ends : span.start ≤ span.stop)
    (within : span.stop < bytes.length) :
    scanFrom span.start (excerpt bytes span) =
      (scan bytes).filter fun mark => span.Holds mark.offset := by
  have split : bytes = bytes.take span.start ++
      (excerpt bytes span ++ bytes.drop (span.stop + 1)) := by
    have shorter : bytes.take span.start = (bytes.take (span.stop + 1)).take span.start := by
      rw [List.take_take, Nat.min_eq_left (Nat.le_succ_of_le ends)]
    rw [shorter, excerpt, ← List.append_assoc, List.take_append_drop, List.take_append_drop]
  have before : (bytes.take span.start).length = span.start :=
    List.length_take_of_le (by omega)
  have inside : span.start + (excerpt bytes span).length = span.stop + 1 := by
    rw [excerpt, List.length_drop, List.length_take_of_le within]
    omega
  conv => right; rw [split]
  rw [scan, scanFrom_append, scanFrom_append, before, Nat.zero_add, inside, filter_between]
  · intro mark member
    have lt := (bounds_of_mem_scanFrom member).2
    exact decide_eq_false fun holds => Nat.not_lt_of_le holds.1 (by omega)
  · intro mark member
    obtain ⟨le, lt⟩ := bounds_of_mem_scanFrom member
    exact decide_eq_true ⟨le, by omega⟩
  · intro mark member
    have le := (bounds_of_mem_scanFrom member).1
    exact decide_eq_false fun holds => Nat.not_lt_of_le holds.2 (by omega)

/-! ### The partition -/

section Segments

variable {bytes : List UInt8} {segments : List (List Mark)} {program : List Instruction}

theorem exists_segment (stands : List.Forall₂ Stands segments program) {i : Instruction}
    (member : i ∈ program) : ∃ before segment after,
      segments = before ++ segment :: after ∧ Stands segment i := by
  induction stands with
  | nil => cases member
  | @cons segment j segments program first rest ih =>
      rcases List.mem_cons.mp member with rfl | member
      · exact ⟨[], segment, segments, rfl, first⟩
      · obtain ⟨before, found, after, rfl, here⟩ := ih member
        exact ⟨segment :: before, found, after, rfl, here⟩

theorem apart_of_segments (stands : List.Forall₂ Stands segments program)
    (ordered : segments.flatten.Pairwise fun a b => a.offset < b.offset) :
    program.Pairwise fun i j => i.span.stop < j.span.start := by
  induction stands with
  | nil => exact .nil
  | @cons segment i segments program first rest ih =>
      obtain ⟨-, others, before⟩ := List.pairwise_append.mp ordered
      refine .cons (fun j member => ?_) (ih others)
      obtain ⟨front, next, back, rfl, second⟩ := exists_segment rest member
      rw [first.stop, second.start]
      refine before _ (List.getLast_mem first.nonempty) _ (List.mem_flatten.mpr ⟨next, ?_, ?_⟩)
      · exact List.mem_append_right _ List.mem_cons_self
      · exact List.head_mem second.nonempty

theorem ends_of_stands {segment : List Mark} {i : Instruction} (stands : Stands segment i)
    (read : ∀ mark ∈ segment, mark ∈ scan bytes) :
    symbolAt? bytes i.span.start = some i.symbol ∧
      symbolAt? bytes i.span.stop = some i.symbol := by
  have first := List.head_mem stands.nonempty
  have last := List.getLast_mem stands.nonempty
  rw [stands.start, stands.stop, mem_scan_iff.mp (read _ first), mem_scan_iff.mp (read _ last),
    stands.alike _ first, stands.alike _ last]
  exact ⟨rfl, rfl⟩

theorem counted_of_stands {segment front back : List Mark} {i : Instruction}
    (stands : Stands segment i) (whole : scan bytes = front ++ (segment ++ back))
    (ends : i.span.start ≤ i.span.stop) (within : i.span.stop < bytes.length) :
    (excerpt bytes i.span).filterMap symbolOfByte? = List.replicate i.count.toNat i.symbol := by
  have ordered := pairwise_scan bytes
  rw [whole] at ordered
  rw [← map_symbol_scanFrom i.span.start, scanFrom_excerpt ends within, whole,
    stands.filter_holds ordered, stands.count]
  exact List.eq_replicate_iff.mpr ⟨List.length_map .., List.forall_mem_map.mpr stands.alike⟩

/-- Spans that are apart do not share a place. -/
theorem index_unique_of_apart (apart : program.Pairwise fun i j => i.span.stop < j.span.start)
    {a b place : Nat} {i j : Instruction} (first : program[a]? = some i)
    (second : program[b]? = some j) (holds : i.span.Holds place) (holds' : j.span.Holds place) :
    a = b := by
  rw [List.pairwise_iff_getElem] at apart
  obtain ⟨ha, rfl⟩ := List.getElem?_eq_some_iff.mp first
  obtain ⟨hb, rfl⟩ := List.getElem?_eq_some_iff.mp second
  rcases Nat.lt_trichotomy a b with lt | same | lt
  · have gap := apart a b ha hb lt
    have before := holds.2
    have behind := holds'.1
    omega
  · exact same
  · have gap := apart b a hb ha lt
    have before := holds'.2
    have behind := holds.1
    omega

theorem exists_holds (stands : List.Forall₂ Stands segments program)
    (ordered : segments.flatten.Pairwise fun a b => a.offset < b.offset) {mark : Mark}
    (member : mark ∈ segments.flatten) :
    ∃ (index : Nat) (i : Instruction), program[index]? = some i ∧ i.span.Holds mark.offset := by
  induction stands with
  | nil => cases member
  | @cons segment i segments program first rest ih =>
      obtain ⟨inner, others, -⟩ := List.pairwise_append.mp ordered
      rcases List.mem_append.mp member with here | later
      · exact ⟨0, i, rfl, first.holds inner mark here⟩
      · obtain ⟨index, j, found, holds⟩ := ih others later
        exact ⟨index + 1, j, found, holds⟩

/-- Instructions that stand for all marks in order divide the symbols among their spans. -/
theorem partitioned_of_segments (whole : segments.flatten = scan bytes)
    (stands : List.Forall₂ Stands segments program) : Partitioned bytes program := by
  have ordered : segments.flatten.Pairwise fun a b => a.offset < b.offset :=
    whole ▸ pairwise_scan bytes
  have apart := apart_of_segments stands ordered
  have ends (i : Instruction) (member : i ∈ program) :
      symbolAt? bytes i.span.start = some i.symbol ∧
        symbolAt? bytes i.span.stop = some i.symbol := by
    obtain ⟨before, segment, after, rfl, here⟩ := exists_segment stands member
    refine ends_of_stands here fun mark inside => ?_
    rw [← whole]
    exact List.mem_flatten.mpr ⟨segment, List.mem_append_right _ List.mem_cons_self, inside⟩
  have within (i : Instruction) (member : i ∈ program) :
      i.span.start ≤ i.span.stop ∧ i.span.stop < bytes.length := by
    obtain ⟨before, segment, after, rfl, here⟩ := exists_segment stands member
    have inner := (List.pairwise_flatten.mp ordered).1 segment
      (List.mem_append_right _ List.mem_cons_self)
    obtain ⟨b, found, -⟩ := Option.bind_eq_some_iff.mp (ends i member).2
    exact ⟨here.le inner, (List.getElem?_eq_some_iff.mp found).1⟩
  refine ⟨apart, within, ends, fun i member => ?_, fun place symbol here => ?_⟩
  · obtain ⟨before, segment, after, rfl, here⟩ := exists_segment stands member
    rw [List.flatten_append, List.flatten_cons] at whole
    exact counted_of_stands here whole.symm (within i member).1 (within i member).2
  · have read : (⟨symbol, place⟩ : Mark) ∈ segments.flatten := by
      rw [whole]
      exact mem_scan_iff.mpr here
    obtain ⟨index, i, found, holds⟩ := exists_holds stands ordered read
    refine ⟨index, ⟨i, found, holds⟩, fun other found' => ?_⟩
    obtain ⟨j, found', holds'⟩ := found'
    exact index_unique_of_apart apart found' found holds' holds

end Segments

/-- Whatever accepted passes have made of a program that was read from some bytes, its spans divide
the symbols of the bytes: they are in order and apart, they start and end at symbols of their
instruction, they hold as many of these as it counts and no others, and every symbol lies in exactly
one of them. -/
theorem partitioned_of_runAll {bytes : List UInt8} {selection : String} {passes : List Pass}
    {program : List Instruction} (selected : Pass.select selection = .ok passes)
    (ran : Pass.runAll passes (parse bytes) = .ok program) : Partitioned bytes program := by
  obtain ⟨segments, whole, stands⟩ := exists_segments selected ran
  exact partitioned_of_segments whole stands

/-- The theorem at the bytes of `a+b+>`, where a comment lies in the span of the merged
instruction. -/
theorem partitioned_of_runAll_comment :
    let bytes : List UInt8 := [97, 43, 98, 43, 62]
    let program : List Instruction := [.act .add 2 ⟨1, 3⟩, .act .right 1 ⟨4, 4⟩]
    Pass.select "all" = .ok [Pass.collapseRuns] ∧
      Pass.runAll [Pass.collapseRuns] (parse bytes) = .ok program ∧ Partitioned bytes program := by
  intro bytes program
  have selected : Pass.select "all" = .ok [Pass.collapseRuns] := rfl
  have ran : Pass.runAll [Pass.collapseRuns] (parse bytes) = .ok program := rfl
  exact ⟨selected, ran, partitioned_of_runAll selected ran⟩

end Source

end Brainfuck
