import NamedQuery.Fault

/-! # Steps that may fail

What is known of a step without knowing whether it fails: `Yields value error` says which values and
which errors it can come to. Steps that are made of others yield what `Yields.bind` puts together. -/

namespace NamedQuery

/-- A step that succeeds after another one: both have succeeded. -/
theorem bind_eq_ok_iff {ε α β : Type} {first : Except ε α} {next : α → Except ε β} {b : β} :
    (first >>= next) = .ok b ↔ ∃ a, first = .ok a ∧ next a = .ok b := by
  cases first with
  | error e =>
    constructor
    · intro h; cases h
    · rintro ⟨a, h, _⟩; cases h
  | ok a =>
    constructor
    · intro h; exact ⟨a, rfl, h⟩
    · rintro ⟨a', h, hnext⟩; cases h; exact hnext

theorem map_eq_error_iff {ε α β : Type} {f : α → β} {result : Except ε α} {e : ε} :
    result.map f = .error e ↔ result = .error e := by
  cases result with
  | error _ => exact ⟨fun h => by cases h; rfl, fun h => by cases h; rfl⟩
  | ok _ => exact ⟨nofun, nofun⟩

/-- A step comes to a value with one property, or to an error with another. -/
inductive Yields {ε α : Type} (value : α → Prop) (error : ε → Prop) : Except ε α → Prop where
  | ok {a : α} : value a → Yields value error (.ok a)
  | error {e : ε} : error e → Yields value error (.error e)

namespace Yields

variable {ε ε' α β : Type} {value : α → Prop} {error : ε → Prop}

theorem bind {first : Except ε α} {next : α → Except ε β} {last : β → Prop}
    (h : Yields value error first) (hnext : ∀ a, value a → Yields last error (next a)) :
    Yields last error (first >>= next) := by
  cases h with
  | ok ha => exact hnext _ ha
  | error he => exact .error he

theorem imp {value' : α → Prop} {error' : ε → Prop} {result : Except ε α}
    (h : Yields value error result) (hvalue : ∀ a, value a → value' a)
    (herror : ∀ e, error e → error' e) : Yields value' error' result := by
  cases h with
  | ok ha => exact .ok (hvalue _ ha)
  | error he => exact .error (herror _ he)

theorem map {f : α → β} {image : β → Prop} {result : Except ε α}
    (h : Yields value error result) (hf : ∀ a, value a → image (f a)) :
    Yields image error (result.map f) := by
  cases h with
  | ok ha => exact .ok (hf _ ha)
  | error he => exact .error he

theorem mapError {f : ε → ε'} {image : ε' → Prop} {result : Except ε α}
    (h : Yields value error result) (hf : ∀ e, error e → image (f e)) :
    Yields value image (result.mapError f) := by
  cases h with
  | ok ha => exact .ok ha
  | error he => exact .error (hf _ he)

/-- The value that a step comes to is this one. -/
theorem eq_ok {result : Except ε α} (h : Yields value error result) :
    Yields (fun a => result = .ok a) error result := by
  cases h with
  | ok _ => exact .ok rfl
  | error he => exact .error he

theorem of_ok {a : α} (h : Yields value error (.ok a)) : value a := by
  cases h with
  | ok ha => exact ha

theorem of_error {e : ε} (h : Yields value error (.error e : Except ε α)) : error e := by
  cases h with
  | error he => exact he

end Yields

end NamedQuery
