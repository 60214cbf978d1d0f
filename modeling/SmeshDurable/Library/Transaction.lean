import Mathlib.Data.List.Forall2

/-!
# Guarded transactions

A transaction is a computation in `Except`: it either fails, and nothing it did
is kept, or returns a result. The lemmas read a successful transaction back as
the conjunction of its guards.
-/

universe u v

namespace Transaction

variable {ε : Type u} {α β : Type v}

/-- Fail with `error` unless the guard holds. -/
def require (guard : Prop) [Decidable guard] (error : ε) : Except ε Unit :=
  if guard then .ok () else .error error

/-- The value of a lookup, or a failure. -/
def expect (value : Option α) (error : ε) : Except ε α :=
  match value with
  | some a => .ok a
  | none => .error error

@[simp] theorem require_eq_ok {guard : Prop} [Decidable guard] {error : ε} {u : Unit} :
    require guard error = .ok u ↔ guard := by
  unfold require
  split <;> simp_all

@[simp] theorem require_eq_error {guard : Prop} [Decidable guard] {error e : ε} :
    require guard error = .error e ↔ ¬ guard ∧ error = e := by
  unfold require
  split <;> simp_all

@[simp] theorem expect_eq_ok {value : Option α} {error : ε} {a : α} :
    expect value error = .ok a ↔ value = some a := by
  cases value <;> simp [expect]

@[simp] theorem bind_eq_ok {x : Except ε α} {f : α → Except ε β} {b : β} :
    (x >>= f) = .ok b ↔ ∃ a, x = .ok a ∧ f a = .ok b := by
  cases x <;> simp [bind, Except.bind]

theorem map_eq_ok {x : Except ε α} {f : α → β} {b : β} :
    x.map f = .ok b ↔ ∃ a, x = .ok a ∧ b = f a := by
  cases x with
  | error error => simp [Except.map]
  | ok a => simp [Except.map, eq_comm]

/-- A loop that only checks goes through if every check does. -/
theorem forM_eq_ok {f : α → Except ε PUnit} {xs : List α} :
    xs.forM f = .ok () ↔ ∀ x ∈ xs, f x = .ok () := by
  induction xs with
  | nil => simp [pure, Except.pure]
  | cons x rest ih =>
    rw [List.forM, bind_eq_ok, List.forall_mem_cons]
    constructor
    · rintro ⟨_, hx, hrest⟩
      exact ⟨hx, ih.mp hrest⟩
    · rintro ⟨hx, hrest⟩
      exact ⟨(), hx, ih.mpr hrest⟩

theorem require_of {guard : Prop} [Decidable guard] (h : guard) (error : ε) :
    require guard error = .ok () := require_eq_ok.mpr h

theorem ok_bind (a : α) (f : α → Except ε β) : (Except.ok a >>= f) = f a := rfl

@[simp] theorem pure_eq_ok {a b : α} : (pure a : Except ε α) = .ok b ↔ a = b := by
  simp [pure, Except.pure]

/-- A traversal succeeds when it succeeds at every element. -/
theorem mapM_eq_ok {f : α → Except ε β} {xs : List α} {ys : List β} :
    xs.mapM f = .ok ys ↔ List.Forall₂ (fun x y => f x = .ok y) xs ys := by
  induction xs generalizing ys with
  | nil =>
    rw [List.mapM_nil, pure_eq_ok, List.forall₂_nil_left_iff]
    exact eq_comm
  | cons x rest ih =>
    rw [List.mapM_cons, bind_eq_ok]
    constructor
    · rintro ⟨y, hy, hrest⟩
      obtain ⟨ys', hys', hcons⟩ := bind_eq_ok.mp hrest
      obtain rfl := pure_eq_ok.mp hcons
      exact .cons hy (ih.mp hys')
    · intro h
      cases h with
      | @cons _ y _ ys' hy hrest =>
        exact ⟨y, hy, bind_eq_ok.mpr ⟨ys', ih.mpr hrest, pure_eq_ok.mpr rfl⟩⟩

/-- What a related list holds is related to an element. -/
theorem exists_of_forall₂ {R : α → β → Prop} {xs : List α} {ys : List β}
    (h : List.Forall₂ R xs ys) {y : β} (hy : y ∈ ys) : ∃ x ∈ xs, R x y := by
  induction h with
  | nil => cases hy
  | @cons x _ xs _ hhead _ ih =>
    rcases List.mem_cons.mp hy with rfl | hy
    · exact ⟨x, List.mem_cons_self, hhead⟩
    · obtain ⟨x', hx', hrel⟩ := ih hy
      exact ⟨x', List.mem_cons_of_mem x hx', hrel⟩

end Transaction
