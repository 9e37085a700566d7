import Mathlib.Data.List.Forall2

/-!
Lists of steps that may fail. Going through a list succeeds when every step does, and fails as the
first step that fails. Two computations agree when both succeed with related values or both fail
with related failures; running agreeing steps over related lists keeps them in agreement.
-/

namespace Brainfuck

/-! ### One step after the other -/

theorem bind_eq_ok_iff {α β ε : Type} {x : Except ε α} {f : α → Except ε β} {b : β} :
    x >>= f = .ok b ↔ ∃ a, x = .ok a ∧ f a = .ok b := by
  cases x with
  | error e =>
      constructor
      · nofun
      · rintro ⟨_, ⟨⟩, -⟩
  | ok a =>
      constructor
      · exact fun done => ⟨a, rfl, done⟩
      · rintro ⟨_, ⟨⟩, done⟩
        exact done

theorem mapError_eq_ok_iff {α ε ε' : Type} {x : Except ε α} {f : ε → ε'} {a : α} :
    x.mapError f = .ok a ↔ x = .ok a := by
  cases x with
  | error e => exact ⟨nofun, nofun⟩
  | ok a' => rw [Except.mapError, Except.ok.injEq, Except.ok.injEq]

theorem exists_eq_ok_of_isOk {α ε : Type} {x : Except ε α} (accepted : x.isOk = true) :
    ∃ a, x = .ok a := by
  cases x with
  | error e => cases accepted
  | ok a => exact ⟨a, rfl⟩

/-! ### One list -/

section Traversals

variable {α β ε : Type} {f : α → Except ε β}

theorem mapM_eq_ok_iff {xs : List α} {ys : List β} :
    xs.mapM f = .ok ys ↔ List.Forall₂ (fun x y => f x = .ok y) xs ys := by
  induction xs generalizing ys with
  | nil =>
      rw [List.forall₂_nil_left_iff]
      constructor
      · intro empty
        exact (Except.ok.inj empty).symm
      · rintro rfl
        rfl
  | cons x rest ih =>
      rw [List.mapM_cons, List.forall₂_cons_left_iff]
      constructor
      · intro mapped
        cases first : f x with
        | error e =>
            rw [first] at mapped
            cases mapped
        | ok y =>
            cases others : rest.mapM f with
            | error e =>
                rw [first, others] at mapped
                cases mapped
            | ok zs =>
                rw [first, others] at mapped
                exact ⟨y, zs, rfl, ih.mp others, (Except.ok.inj mapped).symm⟩
      · rintro ⟨y, zs, first, others, rfl⟩
        rw [first, ih.mpr others]
        rfl

/-- The first step that fails decides how the whole list fails. -/
theorem mapM_of_error {before after : List α} {x : α} {e : ε}
    (fine : ∀ b ∈ before, ∃ y, f b = .ok y) (failed : f x = .error e) :
    (before ++ x :: after).mapM f = .error e := by
  induction before with
  | nil =>
      rw [List.nil_append, List.mapM_cons, failed]
      rfl
  | cons b before ih =>
      obtain ⟨y, first⟩ := fine b List.mem_cons_self
      have others := ih fun b member => fine b (List.mem_cons_of_mem _ member)
      rw [List.cons_append, List.mapM_cons, first, others]
      rfl

/-- A list that fails has a first step that fails, and fails as that step does. -/
theorem exists_of_mapM_error {xs : List α} {e : ε} (failed : xs.mapM f = .error e) :
    ∃ before x after, xs = before ++ x :: after ∧ (∀ b ∈ before, ∃ y, f b = .ok y) ∧
      f x = .error e := by
  induction xs with
  | nil => cases failed
  | cons x rest ih =>
      rw [List.mapM_cons] at failed
      cases first : f x with
      | error e' =>
          rw [first] at failed
          cases failed
          exact ⟨[], x, rest, rfl, nofun, first⟩
      | ok y =>
          cases others : rest.mapM f with
          | ok ys =>
              rw [first, others] at failed
              cases failed
          | error e' =>
              rw [first, others] at failed
              cases failed
              obtain ⟨before, z, after, rfl, fine, failed⟩ := ih others
              refine ⟨x :: before, z, after, rfl, ?_, failed⟩
              intro b member
              rcases List.mem_cons.mp member with rfl | member
              · exact ⟨y, first⟩
              · exact fine b member

/-- A list succeeds exactly when each of its steps does. -/
theorem exists_mapM_ok_iff {xs : List α} :
    (∃ ys, xs.mapM f = .ok ys) ↔ ∀ x ∈ xs, ∃ y, f x = .ok y := by
  constructor
  · rintro ⟨ys, mapped⟩
    rw [mapM_eq_ok_iff] at mapped
    induction mapped with
    | nil => exact nofun
    | cons first rest ih =>
        intro x member
        rcases List.mem_cons.mp member with rfl | member
        · exact ⟨_, first⟩
        · exact ih x member
  · intro fine
    cases mapped : xs.mapM f with
    | ok ys => exact ⟨ys, rfl⟩
    | error e =>
        obtain ⟨before, x, after, rfl, -, failed⟩ := exists_of_mapM_error mapped
        obtain ⟨y, done⟩ := fine x (List.mem_append_right _ List.mem_cons_self)
        rw [done] at failed
        cases failed

theorem mapM_congr {g : α → Except ε β} {xs : List α} (same : ∀ x ∈ xs, f x = g x) :
    xs.mapM f = xs.mapM g := by
  induction xs with
  | nil => rfl
  | cons x rest ih =>
      rw [List.mapM_cons, List.mapM_cons, same x List.mem_cons_self,
        ih fun y member => same y (List.mem_cons_of_mem _ member)]

theorem forall₂_of_mapM_eq_some {g : α → Option β} {xs : List α} {ys : List β}
    (mapped : xs.mapM g = some ys) : List.Forall₂ (fun x y => g x = some y) xs ys := by
  induction xs generalizing ys with
  | nil =>
      cases mapped
      exact .nil
  | cons x rest ih =>
      rw [List.mapM_cons] at mapped
      obtain ⟨y, first, mapped⟩ := Option.bind_eq_some_iff.mp mapped
      obtain ⟨zs, others, same⟩ := Option.bind_eq_some_iff.mp mapped
      cases same
      exact .cons first (ih others)

end Traversals

/-! ### Two lists -/

/-- Both computations succeed, with related values, or both fail, with related failures. -/
inductive Agree {ε ε' α α' : Type} (E : ε → ε' → Prop) (R : α → α' → Prop) :
    Except ε α → Except ε' α' → Prop where
  | ok {a a'} (related : R a a') : Agree E R (.ok a) (.ok a')
  | error {e e'} (related : E e e') : Agree E R (.error e) (.error e')

namespace Agree

variable {ε ε' α α' β β' : Type} {E : ε → ε' → Prop} {R : α → α' → Prop} {S : β → β' → Prop}

theorem bind {x : Except ε α} {x' : Except ε' α'} {f : α → Except ε β} {f' : α' → Except ε' β'}
    (first : Agree E R x x') (next : ∀ a a', R a a' → Agree E S (f a) (f' a')) :
    Agree E S (x >>= f) (x' >>= f') := by
  cases first with
  | ok related => exact next _ _ related
  | error related => exact .error related

theorem map {x : Except ε α} {x' : Except ε' α'} {f : α → β} {f' : α' → β'}
    (first : Agree E R x x') (next : ∀ a a', R a a' → S (f a) (f' a')) :
    Agree E S (f <$> x) (f' <$> x') := by
  cases first with
  | ok related => exact .ok (next _ _ related)
  | error related => exact .error related

theorem foldlM {f : β → α → Except ε β} {f' : β' → α' → Except ε' β'}
    (step : ∀ s s' a a', S s s' → R a a' → Agree E S (f s a) (f' s' a'))
    {items : List α} {items' : List α'} (related : List.Forall₂ R items items') {s : β} {s' : β'}
    (start : S s s') : Agree E S (items.foldlM f s) (items'.foldlM f' s') := by
  induction related generalizing s s' with
  | nil => exact .ok start
  | cons first rest ih =>
      rw [List.foldlM_cons, List.foldlM_cons]
      exact (step _ _ _ _ start first).bind fun _ _ next => ih next

theorem mapM {f : α → Except ε β} {f' : α' → Except ε' β'}
    (step : ∀ a a', R a a' → Agree E S (f a) (f' a')) {items : List α} {items' : List α'}
    (related : List.Forall₂ R items items') :
    Agree E (List.Forall₂ S) (items.mapM f) (items'.mapM f') := by
  induction related with
  | nil => exact .ok .nil
  | cons first rest ih =>
      rw [List.mapM_cons, List.mapM_cons]
      refine (step _ _ first).bind fun b b' head => ?_
      exact ih.bind fun bs bs' tail => .ok (.cons head tail)

end Agree

end Brainfuck
