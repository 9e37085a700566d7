import Brainfuck.Proofs.FileSystem.Writing
import Brainfuck.Proofs.Path.Alike

/-!
Where a path leads. A path that can be followed leads to the place that its names spell, one after
the other (`location_eq`). Without a step up, this is where it starts from, followed by the pieces
that say something. So two such paths from one start lead to one place exactly if they reduce to the
same pieces (`location_eq_iff`).
-/

namespace Brainfuck.FileSystem

variable {fs : FileSystem} {place next : List String} {name path other : String} {t t' : Target}

theorem eq_child_of_enter (entered : fs.enter place name = .ok next) : next = child place name := by
  unfold enter at entered
  split at entered
  · cases entered
  · simp only at entered
    split at entered
    · cases entered
      rfl
    · cases entered
    · cases entered

theorem eq_foldl_child_of_enter {names : List String}
    (entered : names.foldlM fs.enter place = .ok next) : next = names.foldl child place := by
  induction names generalizing place with
  | nil =>
      cases entered
      rfl
  | cons name rest ih =>
      rw [List.foldlM_cons, bind_eq_ok_iff] at entered
      obtain ⟨middle, first, others⟩ := entered
      rw [List.foldl_cons, ← eq_child_of_enter first]
      exact ih others

/-- A path leads to the place that its names spell. -/
theorem location_eq (followed : fs.target path = .ok t) :
    t.location = (names path).foldl child (fs.start path) := by
  obtain ⟨-, -, directory, entered, rfl⟩ := target_eq_ok_iff.mp followed
  rw [eq_foldl_child_of_enter entered]
  rcases List.eq_nil_or_concat (names path) with none | ⟨before, last, spelled⟩
  · simp [Target.location, none]
  · simp [Target.location, spelled]

/-- Without a step up, names lead down. A single dot leads nowhere. -/
theorem foldl_child_of_notMem {names : List String} (down : ".." ∉ names) :
    names.foldl child place = place ++ names.filter (· != ".") := by
  induction names generalizing place with
  | nil => simp
  | cons name rest ih =>
      rw [List.mem_cons, not_or] at down
      rw [List.foldl_cons, ih down.2, child, if_neg (Ne.symm down.1)]
      by_cases dot : name = "."
      · simp [dot]
      · simp [dot]

theorem filter_names (path : String) :
    (names path).filter (· != ".") = (Path.reduced path).map String.ofList := by
  have dot (piece : List Char) : (String.ofList piece != ".") = (piece != ['.']) := by
    rw [Bool.eq_iff_iff, bne_iff_ne, bne_iff_ne]
    exact not_congr (@String.ofList_inj piece ['.'])
  rw [names, List.filter_map, List.filter_filter, Path.reduced]
  congr 1
  refine List.filter_congr fun piece _ => ?_
  rw [Function.comp_apply, dot, Bool.and_comm]

/-- A path that ends in a step up, whatever idle pieces follow, spells a directory. -/
theorem spellsDirectory_of_getLast?_reduced
    (parent : (Path.reduced path).getLast? = some ['.', '.']) : spellsDirectory path = true := by
  rcases List.eq_nil_or_concat (names path) with none | ⟨before, last, spelled⟩
  · have reduced := filter_names path
    rw [none, List.filter_nil, eq_comm, List.map_eq_nil_iff] at reduced
    rw [reduced] at parent
    cases parent
  · rw [List.concat_eq_append] at spelled
    by_cases dot : last = "."
    · simp [spellsDirectory, spelled, dot]
    · have ends := congrArg List.getLast? (filter_names path)
      rw [spelled, List.filter_append, List.filter_cons_of_pos (by simpa using dot),
        List.filter_nil, List.getLast?_concat, List.getLast?_map, parent] at ends
      simp [spellsDirectory, spelled, Option.some.inj ends]

/-- A path without a step up leads down from its start, along the pieces that say something. -/
theorem location_eq_append (followed : fs.target path = .ok t)
    (down : ['.', '.'] ∉ Path.pieces path) :
    t.location = fs.start path ++ (Path.reduced path).map String.ofList := by
  rw [location_eq followed, foldl_child_of_notMem, filter_names]
  rw [names, List.mem_map]
  rintro ⟨piece, member, spelled⟩
  have parent : piece = ['.', '.'] := String.ofList_inj.mp spelled
  exact down (parent ▸ (List.mem_filter.mp member).1)

/-- Two paths from one start, without a step up, lead to one place exactly if they reduce to the
same pieces. -/
theorem location_eq_iff (followed : fs.target path = .ok t) (followed' : fs.target other = .ok t')
    (down : ['.', '.'] ∉ Path.pieces path) (down' : ['.', '.'] ∉ Path.pieces other)
    (start : Path.isAbsolute path = Path.isAbsolute other) :
    t.location = t'.location ↔ Path.reduced path = Path.reduced other := by
  rw [location_eq_append followed down, location_eq_append followed' down',
    FileSystem.start, FileSystem.start, start, List.append_cancel_left_eq]
  exact List.map_inj_right fun _ _ => String.ofList_inj.mp

end Brainfuck.FileSystem
