import Brainfuck.FileSystem
import Brainfuck.Proofs.Fallible

/-!
Writing a file. A write puts its content at one place that is no directory, and nothing stands
anywhere else than before (`write_eq_ok_iff`, `node?_put`). Directories stay what they are, so a
path that could be followed can still be followed, to the same place: what was written is read back,
and any other file reads as it did (`read_of_write`, `read_of_write_elsewhere`).
-/

namespace Brainfuck.FileSystem

variable {fs after : FileSystem} {location place : List String} {content : List UInt8}
  {path other : String}

theorem lookup_filter_ne {files : List (List String × List UInt8)} (elsewhere : place ≠ location) :
    (files.filter (·.1 != location)).lookup place = files.lookup place := by
  induction files with
  | nil => rfl
  | cons file rest ih =>
      by_cases here : file.1 = location
      · have missed : (place == file.1) = false := by simpa [here] using elsewhere
        rw [List.filter_cons_of_neg (by simpa using here), List.lookup_cons, missed, ih]
      · rw [List.filter_cons_of_pos (by simpa using here), List.lookup_cons, List.lookup_cons, ih]

/-- Content that is put at a place stands there, and nothing else has changed. -/
theorem node?_put (free : fs.node? location ≠ some .directory) (place : List String) :
    (fs.put location content).node? place =
      if place = location then some (.file content) else fs.node? place := by
  by_cases here : place = location
  · subst here
    have noDirectory : (place.isEmpty || fs.directories.contains place) = false :=
      Bool.eq_false_iff.mpr fun directory => free (if_pos directory)
    have same : (fs.put place content).directories = fs.directories := rfl
    rw [if_pos rfl, node?, same, noDirectory, put, List.lookup_cons, beq_self_eq_true]
    rfl
  · have missed : (place == location) = false := by simpa using here
    have same : (fs.put location content).directories = fs.directories := rfl
    rw [if_neg here, node?, node?, same, put, List.lookup_cons, missed]
    simp only [lookup_filter_ne here]

/-! ### Following paths -/

/-- The names that a path spells, the dots among them. -/
def names (path : String) : List String :=
  ((Path.pieces path).filter (· != [])).map String.ofList

/-- The directory from which a path is followed. -/
def start (fs : FileSystem) (path : String) : List String :=
  if Path.isAbsolute path then [] else fs.workingDirectory

/-- Whether the spelling of a path says that it leads to a directory. -/
def spellsDirectory (path : String) : Bool :=
  (Path.pieces path).getLast? == some [] || (names path).getLast? == some "." ||
    (names path).getLast? == some ".."

theorem target_eq_ok_iff {t : Target} : fs.target path = .ok t ↔
    path.isEmpty = false ∧ path.utf8ByteSize < pathLimit ∧
      ∃ directory, (names path).dropLast.foldlM fs.enter (fs.start path) = .ok directory ∧
        t = ⟨directory, (names path).getLast?, spellsDirectory path⟩ := by
  have unfolded : fs.target path =
      if path.isEmpty then .error .notFound
      else if pathLimit ≤ path.utf8ByteSize then .error .nameTooLong
      else (names path).dropLast.foldlM fs.enter (fs.start path) >>= fun directory =>
        .ok ⟨directory, (names path).getLast?, spellsDirectory path⟩ := rfl
  rw [unfolded]
  split
  · rename_i empty
    simp [empty]
  · rename_i spelled
    split
    · rename_i long
      simp [Nat.not_lt.mpr long]
    · rename_i short
      rw [and_iff_right (Bool.eq_false_iff.mpr spelled), and_iff_right (Nat.not_le.mp short),
        bind_eq_ok_iff]
      refine exists_congr fun directory => and_congr_right fun _ => ?_
      rw [Except.ok.injEq, eq_comm]

theorem enter_put {name : String} {directory : List String}
    (free : fs.node? location ≠ some .directory)
    (entered : fs.enter place name = .ok directory) :
    (fs.put location content).enter place name = .ok directory := by
  unfold enter at entered ⊢
  split at entered
  · cases entered
  · rename_i short
    rw [if_neg short]
    simp only at entered ⊢
    split at entered
    · rename_i here
      cases entered
      have elsewhere : child place name ≠ location := by
        rintro rfl
        exact free here
      rw [node?_put free, if_neg elsewhere, here]
    · cases entered
    · cases entered

theorem foldlM_enter_put {names : List String} {directory : List String}
    (free : fs.node? location ≠ some .directory)
    (entered : names.foldlM fs.enter place = .ok directory) :
    names.foldlM (fs.put location content).enter place = .ok directory := by
  induction names generalizing place with
  | nil => exact entered
  | cons name rest ih =>
      rw [List.foldlM_cons, bind_eq_ok_iff] at entered ⊢
      obtain ⟨next, first, others⟩ := entered
      exact ⟨next, enter_put free first, ih others⟩

theorem target_put {t : Target} (free : fs.node? location ≠ some .directory)
    (followed : fs.target path = .ok t) : (fs.put location content).target path = .ok t := by
  obtain ⟨spelled, short, directory, entered, rfl⟩ := target_eq_ok_iff.mp followed
  exact target_eq_ok_iff.mpr ⟨spelled, short, directory, foldlM_enter_put free entered, rfl⟩

/-! ### Writing and reading -/

/-- Where a path leads, something that is no directory may be put: the spelling demands none, none
is there, and the name is no longer than names can be. -/
structure Target.IsWritable (fs : FileSystem) (t : Target) : Prop where
  spelling : t.demandsDirectory = false
  name : (t.name.getD "").utf8ByteSize ≤ nameLimit
  free : fs.node? t.location ≠ some .directory

theorem write_of_target {t : Target} (followed : fs.target path = .ok t) :
    fs.write path content =
      if t.demandsDirectory then .error .isADirectory
      else if nameLimit < (t.name.getD "").utf8ByteSize then .error .nameTooLong
      else match fs.node? t.location with
        | some .directory => .error .isADirectory
        | _ => .ok (fs.put t.location content) := by
  rw [write, followed]
  rfl

theorem lookUp_of_target {t : Target} (followed : fs.target path = .ok t) :
    fs.lookUp path =
      if nameLimit < (t.name.getD "").utf8ByteSize then .error .nameTooLong
      else match fs.node? t.location with
        | none => .error .notFound
        | some (.file content) =>
            if t.demandsDirectory then .error .notADirectory else .ok (.file content)
        | some .directory => .ok .directory := by
  rw [lookUp, followed]
  rfl

/-- A write succeeds where a path leads to a place that may be written, and puts the content
there. -/
theorem write_eq_ok_iff : fs.write path content = .ok after ↔
    ∃ t, fs.target path = .ok t ∧ t.IsWritable fs ∧ after = fs.put t.location content := by
  constructor
  · intro written
    cases followed : fs.target path with
    | error e =>
        rw [write, followed] at written
        cases written
    | ok t =>
        rw [write_of_target followed] at written
        split at written
        · cases written
        · rename_i spelling
          split at written
          · cases written
          · rename_i name
            split at written
            · cases written
            · rename_i free
              cases written
              exact ⟨t, rfl, ⟨Bool.eq_false_iff.mpr spelling, Nat.not_lt.mp name, free⟩, rfl⟩
  · rintro ⟨t, followed, ⟨spelling, name, free⟩, rfl⟩
    rw [write_of_target followed, if_neg (Bool.eq_false_iff.mp spelling),
      if_neg (Nat.not_lt.mpr name)]
    split
    · contradiction
    · rfl

theorem read_of_target {t : Target} (followed : fs.target path = .ok t)
    (spelling : t.demandsDirectory = false) (name : (t.name.getD "").utf8ByteSize ≤ nameLimit)
    (here : fs.node? t.location = some (.file content)) : fs.read path = .ok content := by
  rw [read, lookUp_of_target followed, if_neg (Nat.not_lt.mpr name), here, spelling]
  rfl

/-- What reads as a file is one: its spelling demands no directory, and its name is no longer than
names can be. -/
theorem exists_target_of_read (found : fs.read path = .ok content) :
    ∃ t, fs.target path = .ok t ∧ t.demandsDirectory = false ∧
      (t.name.getD "").utf8ByteSize ≤ nameLimit := by
  rw [read, bind_eq_ok_iff] at found
  obtain ⟨node, lookedUp, isFile⟩ := found
  obtain ⟨t, followed, -⟩ := bind_eq_ok_iff.mp lookedUp
  refine ⟨t, followed, ?_⟩
  rw [lookUp_of_target followed] at lookedUp
  split at lookedUp
  · cases lookedUp
  · rename_i name
    split at lookedUp
    · cases lookedUp
    · split at lookedUp
      · cases lookedUp
      · rename_i spelling
        exact ⟨Bool.eq_false_iff.mpr spelling, Nat.not_lt.mp name⟩
    · cases lookedUp
      cases isFile

/-- What was written is read back, in one piece. -/
theorem read_of_write (written : fs.write path content = .ok after) :
    after.read path = .ok content := by
  obtain ⟨t, followed, ⟨spelling, name, free⟩, rfl⟩ := write_eq_ok_iff.mp written
  refine read_of_target (target_put free followed) spelling name ?_
  rw [node?_put free, if_pos rfl]

/-- Another path to the same file reads as what was written. -/
theorem read_of_write_here {t t' : Target} {old : List UInt8} (followed : fs.target path = .ok t)
    (written : fs.write path content = .ok after) (followed' : fs.target other = .ok t')
    (found : fs.read other = .ok old) (here : t'.location = t.location) :
    after.read other = .ok content := by
  obtain ⟨_, followed'', ⟨-, -, free⟩, rfl⟩ := write_eq_ok_iff.mp written
  cases followed.symm.trans followed''
  obtain ⟨_, same, spelling, name⟩ := exists_target_of_read found
  cases followed'.symm.trans same
  refine read_of_target (target_put free followed') spelling name ?_
  rw [node?_put free, if_pos here]

/-- A write is not seen at any place but the one that its path leads to. -/
theorem node?_of_write {t : Target} (followed : fs.target path = .ok t)
    (written : fs.write path content = .ok after) (elsewhere : place ≠ t.location) :
    after.node? place = fs.node? place := by
  obtain ⟨t', followed', ⟨-, -, free⟩, rfl⟩ := write_eq_ok_iff.mp written
  cases followed.symm.trans followed'
  rw [node?_put free, if_neg elsewhere]

/-- A path that leads elsewhere reads as it did. -/
theorem read_of_write_elsewhere {t t' : Target} (followed : fs.target path = .ok t)
    (written : fs.write path content = .ok after) (followed' : fs.target other = .ok t')
    (elsewhere : t'.location ≠ t.location) : after.read other = fs.read other := by
  have same := node?_of_write followed written elsewhere
  obtain ⟨_, followed'', ⟨-, -, free⟩, rfl⟩ := write_eq_ok_iff.mp written
  rw [read, read, lookUp_of_target followed', lookUp_of_target (target_put free followed'), same]

end Brainfuck.FileSystem
