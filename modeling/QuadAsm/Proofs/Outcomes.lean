import Mathlib.Data.List.Forall2

/-!
# Outcomes of computations that can fail

How a computation in `Except` that is put together from others ends: well, if all of its parts end
well, and otherwise as the first part that does not.
-/

namespace QuadAsm

variable {ε δ α β γ : Type}

/-- The same outcome, told in other terms. -/
def mapBoth (f : ε → δ) (g : α → β) : Except ε α → Except δ β
  | .ok a => .ok (g a)
  | .error e => .error (f e)

theorem except_bind_eq_ok {x : Except ε α} {f : α → Except ε β} {b : β} :
    (x >>= f) = .ok b ↔ ∃ a, x = .ok a ∧ f a = .ok b := by
  cases x with
  | ok a => exact ⟨fun h => ⟨a, rfl, h⟩, fun ⟨_, he, h⟩ => by cases he; exact h⟩
  | error e => exact ⟨fun h => (nomatch h), fun ⟨_, he, _⟩ => (nomatch he)⟩

theorem except_bind_eq_error {x : Except ε α} {f : α → Except ε β} {e : ε} :
    (x >>= f) = .error e ↔ x = .error e ∨ ∃ a, x = .ok a ∧ f a = .error e := by
  cases x with
  | ok a =>
      constructor
      · exact fun h => .inr ⟨a, rfl, h⟩
      · rintro (h | ⟨_, he, h⟩)
        · cases h
        · cases he
          exact h
  | error d =>
      constructor
      · intro h
        cases h
        exact .inl rfl
      · rintro (h | ⟨_, he, _⟩)
        · cases h
          rfl
        · cases he

theorem except_pure_eq_ok {a b : α} : (pure a : Except ε α) = .ok b ↔ a = b :=
  ⟨fun h => by cases h; rfl, fun h => by subst h; rfl⟩

theorem except_map_eq_ok {x : Except ε α} {f : α → β} {b : β} :
    x.map f = .ok b ↔ ∃ a, x = .ok a ∧ f a = b := by
  cases x with
  | ok a => exact ⟨fun h => ⟨a, rfl, Except.ok.inj h⟩, fun ⟨_, he, h⟩ => by cases he; rw [← h]; rfl⟩
  | error e => exact ⟨fun h => (nomatch h), fun ⟨_, he, _⟩ => (nomatch he)⟩

theorem mapError_eq_ok {x : Except ε α} {f : ε → δ} {a : α} :
    x.mapError f = .ok a ↔ x = .ok a := by
  cases x with
  | ok b => exact ⟨fun h => by cases h; rfl, fun h => by cases h; rfl⟩
  | error e => exact ⟨fun h => (nomatch h), fun h => (nomatch h)⟩

theorem mapError_eq_error {x : Except ε α} {f : ε → δ} {d : δ} :
    x.mapError f = .error d ↔ ∃ e, x = .error e ∧ f e = d := by
  cases x with
  | ok b => exact ⟨fun h => (nomatch h), fun ⟨_, h, _⟩ => (nomatch h)⟩
  | error e =>
      exact ⟨fun h => ⟨e, rfl, by cases h; rfl⟩, fun ⟨_, h, he⟩ => by cases h; subst he; rfl⟩

theorem mapM_eq_ok {f : α → Except ε β} {xs : List α} {ys : List β} :
    xs.mapM f = .ok ys ↔ List.Forall₂ (fun x y => f x = .ok y) xs ys := by
  induction xs generalizing ys with
  | nil =>
      rw [List.mapM_nil, List.forall₂_nil_left_iff, except_pure_eq_ok]
      exact eq_comm
  | cons x xs ih =>
      simp only [List.mapM_cons, except_bind_eq_ok, except_pure_eq_ok]
      constructor
      · rintro ⟨y, hy, ys', hys, rfl⟩
        exact .cons hy (ih.mp hys)
      · rintro (_ | ⟨hy, hys⟩)
        exact ⟨_, hy, _, ih.mpr hys, rfl⟩

theorem mapM_append_eq_ok {f : α → Except ε β} {xs xs' : List α} {ys ys' : List β}
    (h : xs.mapM f = .ok ys) (h' : xs'.mapM f = .ok ys') :
    (xs ++ xs').mapM f = .ok (ys ++ ys') :=
  mapM_eq_ok.mpr (List.rel_append (mapM_eq_ok.mp h) (mapM_eq_ok.mp h'))

/-- Two stages one after the other take each item through both. -/
theorem mapM_bind_eq_ok {f : α → Except ε β} {g : β → Except ε γ} {xs : List α} {ys : List β}
    {zs : List γ} (h : xs.mapM f = .ok ys) (h' : ys.mapM g = .ok zs) :
    xs.mapM (fun x => f x >>= g) = .ok zs := by
  rw [mapM_eq_ok] at h h' ⊢
  induction h generalizing zs with
  | nil =>
      cases h'
      exact .nil
  | cons hxy _ ih =>
      rcases h' with _ | ⟨hz, hzs⟩
      refine .cons ?_ (ih hzs)
      rw [hxy]
      exact hz

/-- What holds of a stage item by item holds of it as a whole: if one succeeds on a list, so does
the other on a list of related items, and the results are related. -/
theorem exists_mapM_ok_of_forall₂ {R : α → γ → Prop} {S : β → δ → Prop} {f : α → Except ε β}
    {g : γ → Except ε δ} {xs : List α} {xs' : List γ} {ys : List β}
    (hstep : ∀ x x' y, R x x' → f x = .ok y → ∃ y', g x' = .ok y' ∧ S y y')
    (hxs : List.Forall₂ R xs xs') (h : xs.mapM f = .ok ys) :
    ∃ ys', xs'.mapM g = .ok ys' ∧ List.Forall₂ S ys ys' := by
  simp only [mapM_eq_ok] at h ⊢
  induction hxs generalizing ys with
  | nil =>
      cases h
      exact ⟨[], .nil, .nil⟩
  | cons hx _ ih =>
      rcases h with _ | ⟨hy, hys⟩
      obtain ⟨y', hy', hS⟩ := hstep _ _ _ hx hy
      obtain ⟨ys', hys', hrest⟩ := ih hys
      exact ⟨y' :: ys', .cons hy' hys', .cons hS hrest⟩

/-- A stage that handles a list item by item fails with the first item that fails. -/
theorem mapM_eq_error {f : α → Except ε β} {xs : List α} {e : ε} :
    xs.mapM f = .error e ↔
      ∃ before x after, xs = before ++ x :: after ∧ (∀ y ∈ before, ∃ z, f y = .ok z) ∧
        f x = .error e := by
  induction xs with
  | nil =>
      constructor
      · intro h
        cases h
      · rintro ⟨before, x, after, h, _⟩
        simp at h
  | cons x xs ih =>
      simp only [List.mapM_cons, except_bind_eq_error, ih]
      constructor
      · rintro (h | ⟨y, hy, ⟨before, x', after, rfl, hb, he⟩ | ⟨_, _, h⟩⟩)
        · exact ⟨[], x, xs, rfl, by simp, h⟩
        · refine ⟨x :: before, x', after, rfl, ?_, he⟩
          intro z hz
          rcases List.mem_cons.mp hz with rfl | hz
          · exact ⟨y, hy⟩
          · exact hb z hz
        · cases h
      · rintro ⟨before, x', after, h, hb, he⟩
        cases before with
        | nil =>
            cases h
            exact .inl he
        | cons y before =>
            cases h
            obtain ⟨z, hz⟩ := hb x (by simp)
            refine .inr ⟨z, hz, .inl ⟨before, x', after, rfl, ?_, he⟩⟩
            intro w hw
            exact hb w (by simp [hw])

section MapBoth

variable {α' β' : Type} {f : ε → δ} {g : α → α'} {g' : β → β'}

theorem mapBoth_bind {k : α → Except ε β} {k' : α' → Except δ β'}
    (h : ∀ a, k' (g a) = mapBoth f g' (k a)) (x : Except ε α) :
    (mapBoth f g x >>= k') = mapBoth f g' (x >>= k) := by
  cases x with
  | ok a => exact h a
  | error e => rfl

/-- Stages that agree item by item, up to the terms that they are told in, agree as a whole. -/
theorem mapM_mapBoth {k : α → Except ε β} {k' : α' → Except δ β'}
    (h : ∀ a, k' (g a) = mapBoth f g' (k a)) (xs : List α) :
    (xs.map g).mapM k' = mapBoth f (List.map g') (xs.mapM k) := by
  induction xs with
  | nil => rfl
  | cons x xs ih =>
      rw [List.map_cons, List.mapM_cons, List.mapM_cons, h, ih]
      apply mapBoth_bind
      intro y
      apply mapBoth_bind
      intro ys
      rfl

end MapBoth

section Failure

/-- What a computation fails with, if it does. -/
def failure? : Except ε α → Option ε
  | .ok _ => none
  | .error e => some e

theorem failure?_eq_none {x : Except ε α} : failure? x = none ↔ ∃ a, x = .ok a := by
  cases x with
  | ok a => simp [failure?]
  | error e => simp [failure?]

theorem failure?_eq_some {x : Except ε α} {e : ε} : failure? x = some e ↔ x = .error e := by
  cases x with
  | ok a => simp [failure?]
  | error d => simp [failure?]

theorem failure?_mapBoth (f : ε → δ) (g : α → β) (x : Except ε α) :
    failure? (mapBoth f g x) = (failure? x).map f := by
  cases x with
  | ok a => rfl
  | error e => rfl

theorem failure?_mapM (f : α → Except ε β) (xs : List α) :
    failure? (xs.mapM f) = xs.findSome? fun x => failure? (f x) := by
  induction xs with
  | nil => rfl
  | cons x xs ih =>
      rw [List.mapM_cons, List.findSome?_cons, ← ih]
      cases f x with
      | error e => rfl
      | ok y =>
          cases xs.mapM f with
          | error e => rfl
          | ok ys => rfl

theorem map_eq_of_forall₂ {R : α → β → Prop} {f : α → γ} {g : β → γ}
    (hfg : ∀ x y, R x y → f x = g y) {xs : List α} {ys : List β} (h : List.Forall₂ R xs ys) :
    xs.map f = ys.map g := by
  induction h with
  | nil => rfl
  | cons hxy _ ih => rw [List.map_cons, List.map_cons, hfg _ _ hxy, ih]

theorem findSome?_eq_of_forall₂ {R : α → β → Prop} {f : α → Option γ} {g : β → Option γ}
    (hfg : ∀ x y, R x y → f x = g y) {xs : List α} {ys : List β} (h : List.Forall₂ R xs ys) :
    xs.findSome? f = ys.findSome? g := by
  have hmap := congrArg (List.findSome? id) (map_eq_of_forall₂ hfg h)
  rwa [List.findSome?_map, List.findSome?_map] at hmap

end Failure

theorem exists_mem_of_mapM_ok {f : α → Except ε β} {xs : List α} {ys : List β} {y : β}
    (h : xs.mapM f = .ok ys) (hy : y ∈ ys) : ∃ x ∈ xs, f x = .ok y := by
  replace h := mapM_eq_ok.mp h
  induction h with
  | nil => cases hy
  | cons hxy _ ih =>
      rcases List.mem_cons.mp hy with rfl | hy
      · exact ⟨_, .head _, hxy⟩
      · obtain ⟨x, hx, hfx⟩ := ih hy
        exact ⟨x, .tail _ hx, hfx⟩

theorem exists_mem_of_mapM_error {f : α → Except ε β} {xs : List α} {e : ε}
    (h : xs.mapM f = .error e) : ∃ x ∈ xs, f x = .error e := by
  obtain ⟨before, x, after, rfl, _, hx⟩ := mapM_eq_error.mp h
  exact ⟨x, by simp, hx⟩

theorem exists_ok_of_toOption {x : Except ε α} {f : α → β} {b : β}
    (h : x.toOption.map f = some b) : ∃ a, x = .ok a ∧ f a = b := by
  cases x with
  | ok a => exact ⟨a, rfl, Option.some.inj h⟩
  | error e => cases h

theorem getElem?_of_forall₂ {R : α → β → Prop} {xs : List α} {ys : List β}
    (h : List.Forall₂ R xs ys) {k : ℕ} {x : α} (hx : xs[k]? = some x) :
    ∃ y, ys[k]? = some y ∧ R x y := by
  induction h generalizing k with
  | nil => simp at hx
  | cons hxy _ ih =>
      cases k with
      | zero =>
          simp only [List.getElem?_cons_zero, Option.some.injEq] at hx
          subst hx
          exact ⟨_, rfl, hxy⟩
      | succ k => exact ih hx

end QuadAsm
