import Mathlib.Data.List.Forall2

/-!
# Traversals that may fail

A sequence of computations succeeds if each of them does, and fails with the first failure.
-/

namespace Cohort

/-- Two steps that succeed are two steps each of which succeeds. -/
theorem exists_of_bind_eq_ok {ε α β : Type} {m : Except ε α} {f : α → Except ε β} {b : β}
    (h : m >>= f = .ok b) : ∃ a, m = .ok a ∧ f a = .ok b := by
  cases m with
  | error => cases h
  | ok a => exact ⟨a, rfl, h⟩

/-- Two steps fail in the first one, or in the second one behind a first that succeeds. -/
theorem bind_eq_error_iff {ε α β : Type} {m : Except ε α} {f : α → Except ε β} {e : ε} :
    m >>= f = .error e ↔ m = .error e ∨ ∃ a, m = .ok a ∧ f a = .error e := by
  cases m with
  | error => simp [bind, Except.bind]
  | ok a => simp [bind, Except.bind]

theorem toOption_eq_some_iff {ε α : Type} {m : Except ε α} {a : α} :
    m.toOption = some a ↔ m = .ok a := by
  cases m <;> simp [Except.toOption]

section Traversal

variable {ε α β : Type} {g : α → Except ε β}

/-- A traversal succeeds just if it does at every item. -/
theorem mapM_eq_ok_iff {xs : List α} {ys : List β} :
    xs.mapM g = .ok ys ↔ List.Forall₂ (fun x y => g x = .ok y) xs ys := by
  induction xs generalizing ys with
  | nil =>
    rw [List.mapM_nil, List.forall₂_nil_left_iff]
    exact ⟨fun h => by cases h; rfl, fun h => by rw [h]; rfl⟩
  | cons x xs ih =>
    rw [List.mapM_cons, List.forall₂_cons_left_iff]
    constructor
    · intro h
      obtain ⟨y, hy, h⟩ := exists_of_bind_eq_ok h
      obtain ⟨ys', hys, h⟩ := exists_of_bind_eq_ok h
      cases h
      exact ⟨y, ys', hy, ih.mp hys, rfl⟩
    · rintro ⟨y, ys', hy, hys, rfl⟩
      rw [hy, ih.mpr hys]
      rfl

/-- Elements that each have a result with a property have results in one go. -/
theorem exists_mapM_eq_ok {P : α → β → Prop} {xs : List α}
    (h : ∀ x ∈ xs, ∃ y, g x = .ok y ∧ P x y) :
    ∃ ys, xs.mapM g = .ok ys ∧ List.Forall₂ P xs ys := by
  induction xs with
  | nil => exact ⟨[], rfl, .nil⟩
  | cons x xs ih =>
    obtain ⟨⟨y, hy, hxy⟩, hxs⟩ := List.forall_mem_cons.mp h
    obtain ⟨ys, hys, hall⟩ := ih hxs
    refine ⟨y :: ys, ?_, .cons hxy hall⟩
    rw [List.mapM_cons, hy, hys]
    rfl

/-- A traversal fails with the first failure. -/
theorem mapM_eq_error_iff {xs : List α} {e : ε} :
    xs.mapM g = .error e ↔ ∃ front x back ys, xs = front ++ x :: back ∧
      List.Forall₂ (fun x y => g x = .ok y) front ys ∧ g x = .error e := by
  induction xs with
  | nil =>
    refine ⟨nofun, ?_⟩
    rintro ⟨front, x, back, ys, h, -⟩
    cases front <;> cases h
  | cons x xs ih =>
    rw [List.mapM_cons, bind_eq_error_iff]
    constructor
    · rintro (hx | ⟨y, hy, h⟩)
      · exact ⟨[], x, xs, [], rfl, .nil, hx⟩
      · obtain h | ⟨ys, -, h⟩ := bind_eq_error_iff.mp h
        · obtain ⟨front, x', back, ys, rfl, hfront, hx'⟩ := ih.mp h
          exact ⟨x :: front, x', back, y :: ys, rfl, .cons hy hfront, hx'⟩
        · cases h
    · rintro ⟨front, x', back, ys, hsplit, hfront, hx'⟩
      cases hfront with
      | nil =>
        cases hsplit
        exact .inl hx'
      | cons hy hfront =>
        cases hsplit
        exact .inr ⟨_, hy, bind_eq_error_iff.mpr
          (.inl (ih.mpr ⟨_, x', back, _, rfl, hfront, hx'⟩))⟩

/-- A traversal depends on what is done at its items alone. -/
theorem mapM_congr {g' : α → Except ε β} {xs : List α} (h : ∀ x ∈ xs, g x = g' x) :
    xs.mapM g = xs.mapM g' := by
  induction xs with
  | nil => rfl
  | cons x xs ih =>
    obtain ⟨hx, hxs⟩ := List.forall_mem_cons.mp h
    rw [List.mapM_cons, List.mapM_cons, hx, ih hxs]

end Traversal

/-- Lists of elements that pass alike pass alike. -/
theorem all_eq_of_forall₂ {α : Type} {R : α → α → Prop} {p : α → Bool}
    (hR : ∀ x y, R x y → p x = p y) {xs ys : List α} (h : List.Forall₂ R xs ys) :
    xs.all p = ys.all p := by
  induction h with
  | nil => rfl
  | cons hxy _ ih => rw [List.all_cons, List.all_cons, hR _ _ hxy, ih]

/-- What passes in front ends within a list that does not pass as a whole. -/
theorem takeWhile_append_of_not_all {α : Type} {p : α → Bool} {xs : List α}
    (h : ¬ xs.all p = true) (ys : List α) : (xs ++ ys).takeWhile p = xs.takeWhile p := by
  rw [List.takeWhile_append, if_neg]
  intro hlength
  have hself := (List.takeWhile_prefix p).eq_of_length hlength
  exact h (hself ▸ List.all_takeWhile)

section Fold

variable {ε α σ : Type} {f : σ → α → Except ε σ}

/-- A fold fails with the first step that fails. -/
theorem foldlM_eq_error_iff {xs : List α} {s : σ} {e : ε} :
    xs.foldlM f s = .error e ↔ ∃ front x back s', xs = front ++ x :: back ∧
      front.foldlM f s = .ok s' ∧ f s' x = .error e := by
  induction xs generalizing s with
  | nil =>
    refine ⟨nofun, ?_⟩
    rintro ⟨front, x, back, s', h, -⟩
    cases front <;> cases h
  | cons x xs ih =>
    rw [List.foldlM_cons, bind_eq_error_iff]
    constructor
    · rintro (hx | ⟨s', hs', h⟩)
      · exact ⟨[], x, xs, s, rfl, rfl, hx⟩
      · obtain ⟨front, x', back, t, rfl, hfront, hx'⟩ := ih.mp h
        refine ⟨x :: front, x', back, t, rfl, ?_, hx'⟩
        rw [List.foldlM_cons, hs']
        exact hfront
    · rintro ⟨front, x', back, t, hsplit, hfront, hx'⟩
      cases front with
      | nil =>
        cases hsplit
        cases hfront
        exact .inl hx'
      | cons y front =>
        cases hsplit
        rw [List.foldlM_cons] at hfront
        obtain ⟨s', hs', hfront⟩ := exists_of_bind_eq_ok hfront
        exact .inr ⟨s', hs', ih.mpr ⟨front, x', back, t, rfl, hfront, hx'⟩⟩

/-- What every step preserves holds of the result of a fold. -/
theorem foldlM_preserves {P : σ → Prop} (hstep : ∀ s x s', P s → f s x = .ok s' → P s')
    {xs : List α} {s s' : σ} (hs : P s) (h : xs.foldlM f s = .ok s') : P s' := by
  induction xs generalizing s with
  | nil =>
    cases h
    exact hs
  | cons x xs ih =>
    rw [List.foldlM_cons] at h
    obtain ⟨t, ht, h⟩ := exists_of_bind_eq_ok h
    exact ih (hstep s x t hs ht) h

end Fold

end Cohort
