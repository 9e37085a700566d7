import Mathlib.Data.List.Basic

/-!
Texts with nested loops. `Piece` is one piece of such a text: a leaf, or an end of a loop. `Nest` is
what the pieces make up when their loops match. The pieces of a nest can be read back, and nothing
else reads as that nest (`ofPieces?_eq_some_iff`).
-/

namespace Brainfuck

/-- A piece of a text with loops: a leaf, the start of a loop, or its end. -/
inductive Piece (α β γ : Type) where
  | leaf (a : α)
  | opening (b : β)
  | closing (c : γ)
deriving DecidableEq, Repr

/-- Leaves and loops in order. A loop carries what stands at its two ends. -/
inductive Nest (α β γ : Type) where
  | nil
  | leaf (a : α) (rest : Nest α β γ)
  | loop (b : β) (c : γ) (body rest : Nest α β γ)
deriving DecidableEq, Repr

/-- A piece with what it carries replaced. -/
def Piece.map {α β γ α' β' γ' : Type} (f : α → α') (g : β → β') (h : γ → γ') :
    Piece α β γ → Piece α' β' γ'
  | .leaf a => .leaf (f a)
  | .opening b => .opening (g b)
  | .closing c => .closing (h c)

namespace Nest

variable {α β γ : Type}

/-- The pieces of a nest, in order. -/
def pieces : Nest α β γ → List (Piece α β γ)
  | .nil => []
  | .leaf a rest => .leaf a :: rest.pieces
  | .loop b c body rest => .opening b :: (body.pieces ++ .closing c :: rest.pieces)

/-- The number of pieces of a nest. -/
def size (nest : Nest α β γ) : Nat :=
  nest.pieces.length

@[simp] theorem size_nil : (nil : Nest α β γ).size = 0 :=
  rfl

@[simp] theorem size_leaf (a : α) (rest : Nest α β γ) : (leaf a rest).size = rest.size + 1 :=
  rfl

@[simp] theorem size_loop (b : β) (c : γ) (body rest : Nest α β γ) :
    (loop b c body rest).size = body.size + rest.size + 2 := by
  simp [size, pieces]
  omega

/-- A nest of the same shape, with what it carries replaced. -/
def map {α' β' γ' : Type} (f : α → α') (g : β → β') (h : γ → γ') : Nest α β γ → Nest α' β' γ'
  | .nil => .nil
  | .leaf a rest => .leaf (f a) (rest.map f g h)
  | .loop b c body rest => .loop (g b) (h c) (body.map f g h) (rest.map f g h)

theorem pieces_map {α' β' γ' : Type} (f : α → α') (g : β → β') (h : γ → γ') (nest : Nest α β γ) :
    (nest.map f g h).pieces = nest.pieces.map (Piece.map f g h) := by
  induction nest with
  | nil => rfl
  | leaf a rest ih => simp [map, pieces, Piece.map, ih]
  | loop b c body rest ihBody ihRest => simp [map, pieces, Piece.map, ihBody, ihRest]

/-- One nest, and then another one. -/
def append : Nest α β γ → Nest α β γ → Nest α β γ
  | .nil, second => second
  | .leaf a rest, second => .leaf a (rest.append second)
  | .loop b c body rest, second => .loop b c body (rest.append second)

theorem pieces_append (first second : Nest α β γ) :
    (first.append second).pieces = first.pieces ++ second.pieces := by
  induction first with
  | nil => rfl
  | leaf a rest ih => simp [append, pieces, ih]
  | loop b c body rest _ ih => simp [append, pieces, ih]

/-! ### Reading a nest back -/

/-- Cuts pieces at the loop ends that close no loop among them: the nest before the first such end,
and each of these ends with the nest behind it. Fails if a loop is never closed. -/
def cut? : List (Piece α β γ) → Option (Nest α β γ × List (γ × Nest α β γ))
  | [] => some (.nil, [])
  | .leaf a :: rest =>
      match cut? rest with
      | some (first, later) => some (.leaf a first, later)
      | none => none
  | .opening b :: rest =>
      match cut? rest with
      | some (body, (c, after) :: later) => some (.loop b c body after, later)
      | _ => none
  | .closing c :: rest =>
      match cut? rest with
      | some (first, later) => some (.nil, (c, first) :: later)
      | none => none

/-- The nest that pieces make up, if all their loops match. -/
def ofPieces? (ps : List (Piece α β γ)) : Option (Nest α β γ) :=
  match cut? ps with
  | some (nest, []) => some nest
  | _ => none

/-- The pieces of the nests that follow unmatched loop ends, with these ends. -/
def laterPieces (later : List (γ × Nest α β γ)) : List (Piece α β γ) :=
  later.flatMap fun (c, nest) => .closing c :: nest.pieces

/-- Cutting loses nothing. -/
theorem pieces_of_cut? {ps : List (Piece α β γ)} {first : Nest α β γ}
    {later : List (γ × Nest α β γ)} (h : cut? ps = some (first, later)) :
    ps = first.pieces ++ laterPieces later := by
  induction ps generalizing first later with
  | nil =>
      cases h
      rfl
  | cons piece rest ih =>
      cases piece with
      | leaf a =>
          simp only [cut?] at h
          split at h
          · rename_i first' later' hrest
            cases h
            rw [ih hrest]
            rfl
          · cases h
      | opening b =>
          simp only [cut?] at h
          split at h
          · rename_i body c after later' hrest
            cases h
            rw [ih hrest]
            simp [pieces, laterPieces]
          · cases h
      | closing c =>
          simp only [cut?] at h
          split at h
          · rename_i first' later' hrest
            cases h
            rw [ih hrest]
            rfl
          · cases h

/-- Pieces of a nest in front of pieces whose cut starts with an unmatched loop end, or of none at
all, become the first nest of the cut. -/
theorem cut?_pieces_append (nest : Nest α β γ) {tail : List (Piece α β γ)}
    {later : List (γ × Nest α β γ)} (h : cut? tail = some (.nil, later)) :
    cut? (nest.pieces ++ tail) = some (nest, later) := by
  induction nest generalizing tail later with
  | nil => exact h
  | leaf a rest ih => simp only [pieces, List.cons_append, cut?, ih h]
  | loop b c body rest ihBody ihRest =>
      have closed : cut? (.closing c :: (rest.pieces ++ tail)) =
          some (.nil, (c, rest) :: later) := by
        simp only [cut?, ihRest h]
      simp only [pieces, List.cons_append, List.append_assoc, cut?, ihBody closed]

/-- The pieces of a nest are cut nowhere. -/
theorem cut?_of_pieces {nest : Nest α β γ} {ps : List (Piece α β γ)} (h : nest.pieces = ps) :
    cut? ps = some (nest, []) := by
  have whole : cut? (nest.pieces ++ []) = some (nest, []) := cut?_pieces_append nest rfl
  rwa [List.append_nil, h] at whole

theorem ofPieces?_eq_some_iff {ps : List (Piece α β γ)} {nest : Nest α β γ} :
    ofPieces? ps = some nest ↔ nest.pieces = ps := by
  constructor
  · intro h
    unfold ofPieces? at h
    split at h
    · rename_i found hcut
      cases h
      rw [pieces_of_cut? hcut]
      simp [laterPieces]
    · cases h
  · intro h
    simp only [ofPieces?, cut?_of_pieces h]

theorem pieces_injective : Function.Injective (pieces : Nest α β γ → List (Piece α β γ)) := by
  intro a b h
  exact Option.some.inj ((ofPieces?_eq_some_iff.mpr h).symm.trans (ofPieces?_eq_some_iff.mpr rfl))

end Nest

end Brainfuck
