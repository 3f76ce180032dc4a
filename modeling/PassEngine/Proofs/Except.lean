import Mathlib.Data.List.Forall2

namespace PassEngine

variable {ε ε' α β : Type}

@[simp]
theorem ok_bind (a : α) (f : α → Except ε β) : Except.ok a >>= f = f a := rfl

@[simp]
theorem error_bind (e : ε) (f : α → Except ε β) : Except.error e >>= f = .error e := rfl

@[simp]
theorem pure_eq_ok (a : α) : (pure a : Except ε α) = .ok a := rfl

theorem bind_eq_ok_iff {x : Except ε α} {f : α → Except ε β} {b : β} :
    x >>= f = .ok b ↔ ∃ a, x = .ok a ∧ f a = .ok b := by
  cases x <;> simp

theorem bind_eq_error_iff {x : Except ε α} {f : α → Except ε β} {e : ε} :
    x >>= f = .error e ↔ x = .error e ∨ ∃ a, x = .ok a ∧ f a = .error e := by
  cases x <;> simp

theorem mapError_eq_ok_iff {x : Except ε α} {f : ε → ε'} {a : α} :
    x.mapError f = .ok a ↔ x = .ok a := by
  cases x <;> simp [Except.mapError]

theorem mapError_eq_error_iff {x : Except ε α} {f : ε → ε'} {e : ε'} :
    x.mapError f = .error e ↔ ∃ e', x = .error e' ∧ f e' = e := by
  cases x <;> simp [Except.mapError]

theorem exists_eq_ok_iff {x : Except ε α} : (∃ a, x = .ok a) ↔ ∀ e, x ≠ .error e := by
  cases x <;> simp

theorem mapM_eq_ok_iff {f : α → Except ε β} {xs : List α} {ys : List β} :
    xs.mapM f = .ok ys ↔ List.Forall₂ (fun x y => f x = .ok y) xs ys := by
  induction xs generalizing ys with
  | nil =>
    rw [List.mapM_nil, pure_eq_ok, Except.ok.injEq, List.forall₂_nil_left_iff]
    exact eq_comm
  | cons x xs ih =>
    simp only [List.mapM_cons, bind_eq_ok_iff, pure_eq_ok, Except.ok.injEq, ih,
      List.forall₂_cons_left_iff]
    constructor
    · rintro ⟨y, hy, zs, hzs, rfl⟩
      exact ⟨y, zs, hy, hzs, rfl⟩
    · rintro ⟨y, zs, hy, hzs, rfl⟩
      exact ⟨y, hy, zs, hzs, rfl⟩

theorem exists_mapM_eq_ok_iff {f : α → Except ε β} {xs : List α} :
    (∃ ys, xs.mapM f = .ok ys) ↔ ∀ x ∈ xs, ∃ y, f x = .ok y := by
  simp only [mapM_eq_ok_iff]
  induction xs with
  | nil => simp
  | cons x xs ih =>
    rw [List.forall_mem_cons, ← ih]
    constructor
    · rintro ⟨_, hys⟩
      cases hys with
      | cons hy htail => exact ⟨⟨_, hy⟩, _, htail⟩
    · rintro ⟨⟨y, hy⟩, ys, hys⟩
      exact ⟨y :: ys, hys.cons hy⟩

/-- A traversal fails with what goes wrong first. -/
theorem mapM_eq_error_iff {f : α → Except ε β} {xs : List α} {e : ε} :
    xs.mapM f = .error e ↔ ∃ before x after, xs = before ++ x :: after ∧
      (∀ y ∈ before, ∃ z, f y = .ok z) ∧ f x = .error e := by
  induction xs with
  | nil => simp
  | cons a xs ih =>
    simp only [List.mapM_cons, bind_eq_error_iff, pure_eq_ok, reduceCtorEq, and_false, exists_false,
      or_false, ih]
    constructor
    · rintro (h | ⟨b, hb, before, x, after, rfl, hbefore, h⟩)
      · exact ⟨[], a, xs, rfl, by simp, h⟩
      · exact ⟨a :: before, x, after, rfl, List.forall_mem_cons.2 ⟨⟨b, hb⟩, hbefore⟩, h⟩
    · rintro ⟨before, x, after, heq, hbefore, h⟩
      rcases List.cons_eq_append_iff.1 heq with ⟨rfl, hcons⟩ | ⟨before, rfl, rfl⟩
      · cases hcons
        exact .inl h
      · obtain ⟨⟨b, hb⟩, hbefore⟩ := List.forall_mem_cons.1 hbefore
        exact .inr ⟨b, hb, before, x, after, rfl, hbefore, h⟩

theorem option_mapM_eq_error_iff {f : α → Except ε β} {x : Option α} {e : ε} :
    x.mapM f = .error e ↔ ∃ a, x = some a ∧ f a = .error e := by
  cases x with
  | none => simp
  | some a => cases ha : f a <;> simp [Functor.map, Except.map, ha]

section Inverse

variable {f : α → Except ε β}

/-- What a traversal has carried over element by element comes back element by element. -/
theorem map_of_mapM {g : β → α} (hg : ∀ a b, f a = .ok b → g b = a) {xs : List α} {ys : List β}
    (h : xs.mapM f = .ok ys) : ys.map g = xs := by
  rw [mapM_eq_ok_iff] at h
  induction h with
  | nil => rfl
  | cons hxy _ ih => rw [List.map_cons, hg _ _ hxy, ih]

theorem option_map_of_mapM {g : β → α} (hg : ∀ a b, f a = .ok b → g b = a) {x : Option α}
    {y : Option β} (h : x.mapM f = .ok y) : y.map g = x := by
  cases x with
  | none => cases h; rfl
  | some a =>
    cases ha : f a with
    | error e => simp [ha, Functor.map, Except.map] at h
    | ok b =>
      simp only [Option.mapM_some, ha, Functor.map, Except.map, Except.ok.injEq] at h
      rw [← h, Option.map_some, hg a b ha]

theorem mapM_map_of_mapM {γ : Type} {g : β → Except ε' γ} {k : α → γ} {xs : List α}
    (hg : ∀ a ∈ xs, ∀ b, f a = .ok b → g b = .ok (k a)) {ys : List β}
    (h : xs.mapM f = .ok ys) : ys.mapM g = .ok (xs.map k) := by
  rw [mapM_eq_ok_iff] at h ⊢
  rw [List.forall₂_map_right_iff]
  exact ((List.forall₂_and_left _ _).2 ⟨hg, h⟩).flip.imp fun b a hab => hab.1 b hab.2

theorem mapM_of_mapM {g : β → Except ε' α} (hg : ∀ a b, f a = .ok b → g b = .ok a) {xs : List α}
    {ys : List β} (h : xs.mapM f = .ok ys) : ys.mapM g = .ok xs := by
  rw [mapM_map_of_mapM (fun a _ => hg a) h, List.map_id']

end Inverse

/-- A fold fails at the first step that does, and has come up to there. -/
theorem exists_of_foldlM_eq_error {σ : Type} {f : σ → α → Except ε σ} {xs : List α} {s : σ} {e : ε}
    (h : xs.foldlM f s = .error e) :
    ∃ before x after t, xs = before ++ x :: after ∧ before.foldlM f s = .ok t ∧
      f t x = .error e := by
  induction xs generalizing s with
  | nil => cases h
  | cons x xs ih =>
    rw [List.foldlM_cons] at h
    rcases bind_eq_error_iff.1 h with h | ⟨t, ht, h⟩
    · exact ⟨[], x, xs, s, rfl, rfl, h⟩
    · obtain ⟨before, y, after, u, rfl, hbefore, hy⟩ := ih h
      refine ⟨x :: before, y, after, u, rfl, ?_, hy⟩
      rw [List.foldlM_cons, ht]
      exact hbefore

theorem eq_range_of_append_cons {n x : Nat} {before after : List Nat}
    (h : List.range n = before ++ x :: after) : before = List.range x ∧ x < n := by
  have hget : (List.range n)[before.length]? = some x := by simp [h]
  obtain ⟨hlt, hx⟩ := List.getElem?_eq_some_iff.1 hget
  rw [List.length_range] at hlt
  rw [List.getElem_range] at hx
  have htake : (List.range n).take before.length = before := by rw [h, List.take_left]
  rw [List.take_range, Nat.min_eq_left (Nat.le_of_lt hlt), hx] at htake
  exact ⟨htake.symm, hx ▸ hlt⟩

end PassEngine
