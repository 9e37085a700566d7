import Brainfuck.Path
import Brainfuck.Proofs.Text.Lines

/-!
When two paths are spelled alike. The components of a path tell whether it starts from the root,
whether it starts with a dot, and which of its pieces say something; and they tell nothing else
(`alike_iff`). So two relative paths to one place may be told apart: by a dot before one of them.
-/

namespace Brainfuck.Path

variable {path a b : String} {piece : List Char}

/-- The pieces that say something: neither empty ones nor single dots. -/
def reduced (path : String) : List (List Char) :=
  (pieces path).filter fun piece => piece != [] && piece != ['.']

/-- Whether the first piece is a single dot. -/
def isDotted (path : String) : Bool :=
  (pieces path).head? == some ['.']

theorem mem_reduced_iff :
    piece ∈ reduced path ↔ piece ∈ pieces path ∧ piece ≠ [] ∧ piece ≠ ['.'] := by
  rw [reduced, List.mem_filter, Bool.and_eq_true, bne_iff_ne, bne_iff_ne]

/-! ### Pieces -/

theorem slash_notMem_of_mem_pieces (member : piece ∈ pieces path) : '/' ∉ piece :=
  Text.notMem_of_mem_splitOn member

/-- A path from the root begins with an empty piece. -/
theorem pieces_of_isAbsolute (absolute : isAbsolute path = true) :
    ∃ rest, pieces path = [] :: rest := by
  rw [isAbsolute, beq_iff_eq, List.head?_eq_some_iff] at absolute
  obtain ⟨rest, spelled⟩ := absolute
  refine ⟨rest.splitOn '/', ?_⟩
  rw [pieces, spelled, List.splitOn_cons_eq_if_modifyHead, beq_self_eq_true, if_pos rfl]

/-! ### Components -/

/-- What a path begins with, if that matters to how it is spelled: the root or a dot. -/
def lead (path : String) : List (List Char) :=
  if isAbsolute path then [['/']] else if isDotted path then [['.']] else []

theorem eq_of_mem_lead (member : piece ∈ lead path) : piece = ['/'] ∨ piece = ['.'] := by
  rw [lead] at member
  split at member
  · exact .inl (List.mem_singleton.mp member)
  · split at member
    · exact .inr (List.mem_singleton.mp member)
    · cases member

theorem ne_of_mem_reduced (member : piece ∈ reduced path) : piece ≠ ['/'] ∧ piece ≠ ['.'] := by
  obtain ⟨among, -, noDot⟩ := mem_reduced_iff.mp member
  refine ⟨?_, noDot⟩
  rintro rfl
  exact slash_notMem_of_mem_pieces among List.mem_cons_self

theorem components_eq : components path = lead path ++ reduced path := by
  obtain ⟨first, rest, split⟩ := List.exists_cons_of_ne_nil (List.splitOn_ne_nil '/' path.toList)
  rw [← pieces] at split
  rw [components, lead, isDotted, reduced, split]
  by_cases absolute : isAbsolute path
  · obtain ⟨_, split'⟩ := pieces_of_isAbsolute absolute
    cases split.symm.trans split'
    simp [absolute]
  · by_cases empty : first = []
    · simp [absolute, empty]
    · by_cases dot : first = ['.']
      · simp [absolute, dot]
      · simp [absolute, empty, dot]

/-- The components tell the lead from the rest: neither the root nor a dot says something
elsewhere. -/
theorem filter_components :
    (components path).filter (fun piece => piece == ['/'] || piece == ['.']) = lead path ∧
      (components path).filter (fun piece => !(piece == ['/'] || piece == ['.'])) =
        reduced path := by
  have marks : ∀ piece ∈ lead path, (piece == ['/'] || piece == ['.']) = true := by
    intro piece member
    simpa using eq_of_mem_lead member
  have others : ∀ piece ∈ reduced path, (piece == ['/'] || piece == ['.']) = false := by
    intro piece member
    simpa using ne_of_mem_reduced member
  rw [components_eq, List.filter_append, List.filter_append]
  constructor
  · rw [List.filter_eq_self.mpr marks, List.filter_eq_nil_iff.mpr, List.append_nil]
    intro piece member
    simp [others piece member]
  · rw [List.filter_eq_nil_iff.mpr, List.filter_eq_self.mpr, List.nil_append]
    · intro piece member
      simp [others piece member]
    · intro piece member
      simp [marks piece member]

/-- Two paths are spelled alike exactly if they have the same lead and the same pieces that say
something. -/
theorem alike_iff : alike a b = true ↔ lead a = lead b ∧ reduced a = reduced b := by
  rw [alike, beq_iff_eq]
  constructor
  · intro same
    obtain ⟨leadA, restA⟩ : _ = lead a ∧ _ = reduced a := filter_components
    obtain ⟨leadB, restB⟩ : _ = lead b ∧ _ = reduced b := filter_components
    rw [← leadA, ← leadB, ← restA, ← restB, same]
    exact ⟨rfl, rfl⟩
  · rintro ⟨sameLead, sameRest⟩
    rw [components_eq, components_eq, sameLead, sameRest]

theorem reduced_ne_of_alike (apart : alike a b = false) (same : lead a = lead b) :
    reduced a ≠ reduced b := by
  intro rest
  rw [alike_iff.mpr ⟨same, rest⟩] at apart
  cases apart

/-- If two paths reduce to the same pieces, and both are absolute or neither is, only a dot in front
of one of them tells their spellings apart. -/
theorem alike_eq_false_iff (start : isAbsolute a = isAbsolute b) (same : reduced a = reduced b) :
    alike a b = false ↔ isAbsolute a = false ∧ isDotted a ≠ isDotted b := by
  rw [Bool.eq_false_iff, ne_eq, alike_iff, and_iff_left same, lead, lead, ← start]
  cases isAbsolute a with
  | true => simp
  | false => cases isDotted a <;> cases isDotted b <;> simp

end Brainfuck.Path
