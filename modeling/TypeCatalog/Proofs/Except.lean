import Mathlib.Data.List.Forall2

/-! When work that may fail gives a result: taken apart where it is made of parts, and seen where it
is tried. -/
namespace TypeCatalog

variable {ε δ α β : Type}

theorem bind_eq_ok_iff {x : Except ε α} {f : α → Except ε β} {b : β} :
    x >>= f = .ok b ↔ ∃ a, x = .ok a ∧ f a = .ok b := by
  cases x <;> simp [bind, Except.bind]

theorem map_eq_ok_iff {x : Except ε α} {f : α → β} {b : β} :
    x.map f = .ok b ↔ ∃ a, x = .ok a ∧ f a = b := by
  cases x <;> simp [Except.map]

/-- Another account of the failure is no result. -/
theorem mapError_eq_ok_iff {x : Except ε α} {f : ε → δ} {a : α} :
    x.mapError f = .ok a ↔ x = .ok a := by
  cases x with
  | error e => constructor <;> exact nofun
  | ok found =>
    constructor <;>
    · rintro ⟨⟩
      rfl

/-- Work on all of a list gives the results item by item. -/
theorem mapM_eq_ok_iff {f : α → Except ε β} {xs : List α} {ys : List β} :
    xs.mapM f = .ok ys ↔ List.Forall₂ (fun x y => f x = .ok y) xs ys := by
  induction xs generalizing ys with
  | nil => simp [pure, Except.pure, eq_comm]
  | cons x xs ih =>
    simp only [List.mapM_cons, bind_eq_ok_iff, pure, Except.pure, Except.ok.injEq, ih,
      List.forall₂_cons_left_iff]
    constructor
    · rintro ⟨y, here, ys, there, rfl⟩
      exact ⟨y, ys, here, there, rfl⟩
    · rintro ⟨y, ys, here, there, rfl⟩
      exact ⟨y, here, ys, there, rfl⟩

theorem eq_ok_of_toOption {x : Except ε α} {a : α} (tried : x.toOption = some a) : x = .ok a := by
  cases x with
  | error e => cases tried
  | ok found =>
    cases tried
    rfl

theorem exists_error_of_toOption {x : Except ε α} (tried : x.toOption = none) :
    ∃ e, x = .error e := by
  cases x with
  | error e => exact ⟨e, rfl⟩
  | ok found => cases tried

end TypeCatalog
