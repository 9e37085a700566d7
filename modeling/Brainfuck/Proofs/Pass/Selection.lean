import Brainfuck.Pass
import Brainfuck.Proofs.RunLength.Blocks

/-!
What a selection selects. Unless it is one of the two special words, the first of its pieces that
names no pass is reported; without such a piece every pass it selects is the one that collapses
runs. A pass that leaves its own results as they are has nothing to do after its first turn, and
collapsing runs is such a pass. So all that matters of an accepted selection is whether it selects
any pass at all (`runAll_of_select`), and one turn is as good as many (`applyAll_selected`).
-/

namespace Brainfuck.Pass

/-- The piece names a pass, blanks around the name aside. -/
def Known (piece : List Char) : Prop :=
  Text.trimBlanks piece = "collapse-runs".toList

instance (piece : List Char) : Decidable (Known piece) :=
  inferInstanceAs (Decidable (_ = _))

/-- The first piece between the commas of a selection that names no pass. The words `none` and `all`
are no pieces. -/
def firstUnknown? (text : String) : Option String :=
  if text = "none" ∨ text = "all" then none
  else ((text.toList.splitOn ',').find? fun piece => ¬ Known piece).map String.ofList

theorem ofPiece_of_known {piece : List Char} (known : Known piece) :
    ofPiece piece = .ok collapseRuns := by
  rw [ofPiece, known]
  rfl

theorem ofPiece_of_unknown {piece : List Char} (unknown : ¬ Known piece) :
    ofPiece piece = .error (.unknownPass (String.ofList piece)) := by
  have other : ("collapse-runs" == String.ofList (Text.trimBlanks piece)) = false := by
    rw [beq_eq_false_iff_ne]
    intro same
    apply unknown
    rw [Known, same, String.toList_ofList]
  have absent : registered.find? (·.name == String.ofList (Text.trimBlanks piece)) = none := by
    rw [registered, List.find?_cons, show collapseRuns.name = "collapse-runs" from rfl, other]
    rfl
  simp only [ofPiece, absent]

theorem select_of_unknown {text name : String} (unknown : firstUnknown? text = some name) :
    select text = .error (.unknownPass name) := by
  unfold firstUnknown? at unknown
  split at unknown
  · cases unknown
  · rename_i special
    obtain ⟨notNone, notAll⟩ := not_or.mp special
    obtain ⟨piece, found, rfl⟩ := Option.map_eq_some_iff.mp unknown
    obtain ⟨isUnknown, before, after, cut, earlier⟩ := List.find?_eq_some_iff_append.mp found
    rw [select, if_neg notNone, if_neg notAll, cut]
    refine mapM_of_error (fun b member => ⟨collapseRuns, ofPiece_of_known ?_⟩)
      (ofPiece_of_unknown (of_decide_eq_true isUnknown))
    simpa using earlier b member

theorem known_of_firstUnknown? {text : String} (notNone : text ≠ "none") (notAll : text ≠ "all")
    (known : firstUnknown? text = none) : ∀ piece ∈ text.toList.splitOn ',', Known piece := by
  rw [firstUnknown?, if_neg (not_or.mpr ⟨notNone, notAll⟩), Option.map_eq_none_iff,
    List.find?_eq_none] at known
  intro piece member
  simpa using known piece member

/-- A selection whose pieces all name a pass selects one for each of them. -/
theorem select_of_pieces {text : String} (notNone : text ≠ "none") (notAll : text ≠ "all")
    (known : ∀ piece ∈ text.toList.splitOn ',', Known piece) :
    select text = .ok (List.replicate (text.toList.splitOn ',').length collapseRuns) := by
  rw [select, if_neg notNone, if_neg notAll, mapM_eq_ok_iff]
  generalize text.toList.splitOn ',' = pieces at known
  induction pieces with
  | nil => exact .nil
  | cons piece rest ih =>
      have first : Known piece := known piece List.mem_cons_self
      exact .cons (ofPiece_of_known first) (ih fun b member => known b (.tail _ member))

/-- An accepted selection selects the collapsing of runs, some number of times. -/
theorem select_of_known {text : String} (known : firstUnknown? text = none) :
    ∃ count, select text = .ok (List.replicate count collapseRuns) ∧
      (count = 0 ↔ text = "none") := by
  by_cases isNone : text = "none"
  · exact ⟨0, by rw [select, if_pos isNone]; rfl, by simp [isNone]⟩
  · by_cases isAll : text = "all"
    · exact ⟨1, by rw [select, if_neg isNone, if_pos isAll]; rfl, by simp [isNone]⟩
    · refine ⟨_, select_of_pieces isNone isAll (known_of_firstUnknown? isNone isAll known), ?_⟩
      simp [isNone, List.splitOn_ne_nil]

/-! ### Turns of one pass -/

/-- The pass leaves its own results as they are. -/
def Settles (pass : Pass) : Prop :=
  ∀ program shorter, pass.run program = .ok shorter → pass.run shorter = .ok shorter

theorem settles_collapseRuns : collapseRuns.Settles :=
  fun _ _ collapsed => RunLength.collapse_collapse collapsed

/-- What a pass did that has left a program of some length as it was. -/
def Effect.idle (pass : String) (length : Nat) : Effect :=
  ⟨pass, length, length⟩

section Turns

variable {pass : Pass} {program shorter : List Instruction}

theorem applyAll_cons_of_error {e : Error} (rest : List Pass)
    (failed : pass.run program = .error e) :
    applyAll (pass :: rest) program = ([], .error e) := by
  rw [applyAll, failed]

theorem applyAll_cons_of_ok (rest : List Pass) (ran : pass.run program = .ok shorter) :
    applyAll (pass :: rest) program =
      (⟨pass.name, program.length, shorter.length⟩ :: (applyAll rest shorter).1,
        (applyAll rest shorter).2) := by
  rw [applyAll, ran]

/-- On a program that a pass leaves as it is, all turns of the pass are idle. -/
theorem applyAll_of_fixed (fixed : pass.run program = .ok program) (count : Nat) :
    applyAll (List.replicate count pass) program =
      (List.replicate count (.idle pass.name program.length), .ok program) := by
  induction count with
  | zero => rfl
  | succ count ih =>
      rw [List.replicate_succ, applyAll_cons_of_ok _ fixed, ih, List.replicate_succ]
      rfl

/-- Of several turns of a pass that leaves its own results as they are, only the first one has an
effect. -/
theorem Settles.applyAll_of_ok (settles : pass.Settles) (ran : pass.run program = .ok shorter)
    (more : Nat) :
    applyAll (List.replicate (more + 1) pass) program =
      (⟨pass.name, program.length, shorter.length⟩ ::
        List.replicate more (.idle pass.name shorter.length), .ok shorter) := by
  have fixed : pass.run shorter = .ok shorter := settles program shorter ran
  rw [List.replicate_succ, applyAll_cons_of_ok _ ran, applyAll_of_fixed fixed]

end Turns

/-! ### Running -/

/-- Collapsing runs any number of times, but at least once, is collapsing them once. -/
theorem runAll_replicate (count : Nat) (program : List Instruction) :
    runAll (List.replicate (count + 1) collapseRuns) program = RunLength.collapse program := by
  cases collapsed : RunLength.collapse program with
  | error e => exact congrArg Prod.snd (applyAll_cons_of_error _ collapsed)
  | ok shorter => exact congrArg Prod.snd (settles_collapseRuns.applyAll_of_ok collapsed count)

/-- The passes of an accepted selection do nothing, if there are none, and collapse runs
otherwise. -/
theorem runAll_of_select {text : String} {passes : List Pass} (selected : select text = .ok passes)
    (program : List Instruction) :
    runAll passes program = if text = "none" then .ok program else RunLength.collapse program := by
  cases known : firstUnknown? text with
  | some name =>
      rw [select_of_unknown known] at selected
      cases selected
  | none =>
      obtain ⟨count, all, none⟩ := select_of_known known
      rw [selected] at all
      cases all
      cases count with
      | zero =>
          rw [if_pos (none.mp rfl)]
          rfl
      | succ count => rw [if_neg (mt none.mpr (Nat.succ_ne_zero count)), runAll_replicate]

/-- An accepted selection, other than the one of no pass, selects the collapsing of runs, and that
at least once. -/
theorem exists_turns_of_select {text : String} {passes : List Pass}
    (selected : select text = .ok passes) (notNone : text ≠ "none") :
    ∃ more, passes = List.replicate (more + 1) collapseRuns := by
  cases known : firstUnknown? text with
  | some name => cases selected.symm.trans (select_of_unknown known)
  | none =>
      obtain ⟨count, all, isNone⟩ := select_of_known known
      cases selected.symm.trans all
      obtain ⟨more, rfl⟩ : ∃ more, count = more + 1 :=
        Nat.exists_eq_succ_of_ne_zero fun zero => notNone (isNone.mp zero)
      exact ⟨more, rfl⟩

/-- The passes of an accepted selection, unless it is the one of no pass, do to every program what
collapsing its runs once does, with the same result and with the same failure. If collapsing fails,
no pass comes to its end. If it succeeds, the first pass has all the effect, and every other pass
finds nothing to do. -/
theorem applyAll_selected {text : String} {passes : List Pass} (selected : select text = .ok passes)
    (notNone : text ≠ "none") (program : List Instruction) :
    runAll passes program = RunLength.collapse program ∧
      (∀ e, RunLength.collapse program = .error e → applyAll passes program = ([], .error e)) ∧
      ∀ shorter, RunLength.collapse program = .ok shorter →
        ∃ more, passes.length = more + 1 ∧ applyAll passes program =
          (⟨"collapse-runs", program.length, shorter.length⟩ ::
            List.replicate more (.idle "collapse-runs" shorter.length), .ok shorter) := by
  obtain ⟨more, rfl⟩ := exists_turns_of_select selected notNone
  refine ⟨runAll_replicate more program, ?_, ?_⟩
  · intro e failed
    exact applyAll_cons_of_error _ failed
  · intro shorter collapsed
    exact ⟨more, List.length_replicate, settles_collapseRuns.applyAll_of_ok collapsed more⟩

/-- The theorem for a selection that names the pass three times, with a program that the first turn
makes shorter and with one that it refuses. -/
theorem applyAll_selected_three :
    let text := "collapse-runs, collapse-runs ,\tcollapse-runs"
    let passes := [collapseRuns, collapseRuns, collapseRuns]
    let program : List Instruction :=
      [.act .add 0 ⟨8, 2⟩, .act .add 4294967295 ⟨7, 9⟩, .output ⟨1, 1⟩]
    let long : List Instruction := [.act .sub 4294967295 ⟨3, 3⟩, .act .sub 1 ⟨0, 2⟩]
    (select text = .ok passes ∧ text ≠ "none") ∧
      runAll passes program = .ok [.act .add 4294967295 ⟨7, 9⟩, .output ⟨1, 1⟩] ∧
      applyAll passes long = ([], .error (.runLengthOverflow '-' ⟨0, 3⟩)) := by
  intro text passes program long
  have selected : select text = .ok passes := by
    subst text passes
    cbv
  have notNone : text ≠ "none" := by decide
  refine ⟨⟨selected, notNone⟩, ?_, ?_⟩
  · exact (applyAll_selected selected notNone program).1
  · exact (applyAll_selected selected notNone long).2.1 _ rfl

end Brainfuck.Pass
