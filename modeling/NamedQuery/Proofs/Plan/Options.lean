import NamedQuery.Plan.Compile
import NamedQuery.Proofs.Fields
import NamedQuery.Proofs.Store.Window
import NamedQuery.Proofs.Yields

/-! # What callers ask for

A blank option is none, so what a caller asks for under a name is the option of that name unless it
is blank (`Options.asked`). The options that reach an adapter are looked up here in these terms. -/

namespace NamedQuery

namespace Options

/-- A way to look options up, but for the blank ones. -/
def unlessBlank (ask : Store.Ask) (name : String) : Option Json :=
  (ask name).filter fun value => !value.isBlank

/-- The option of a name, unless it is blank. -/
def asked (options : Options) : Store.Ask :=
  unlessBlank options.get?

theorem get?_compact {options : Options} (hsorted : options.Sorted) (name : String) :
    (compact options).get? name = options.asked name :=
  Fields.get?_filter hsorted (fun value => !value.isBlank) name

theorem sorted_compact {options : Options} (hsorted : options.Sorted) : (compact options).Sorted :=
  hsorted.filter _

theorem asked_eq_none_of_get? {options : Options} {name : String}
    (h : options.get? name = none) : options.asked name = none := by
  rw [asked, unlessBlank, h]
  rfl

/-! ## What reaches an adapter -/

/-- The options of a caller without blanks and without the request to embed. -/
def remaining (options : Options) : Options :=
  (compact options).erase "eager_load"

/-- Without a request to embed related records the options stay as they are, but for the blank
ones. -/
theorem splitEagerLoad_of_none {options : Options} (hsorted : options.Sorted)
    (h : options.get? "eager_load" = none) :
    splitEagerLoad options = .ok (remaining options, []) := by
  rw [splitEagerLoad, get?_compact hsorted, asked_eq_none_of_get? h]
  rfl

theorem sorted_remaining {options : Options} (hsorted : options.Sorted) : (remaining options).Sorted :=
  (sorted_compact hsorted).erase _

theorem get?_remaining_eq {options : Options} (hsorted : options.Sorted) (name : String) :
    (remaining options).get? name = if "eager_load" = name then none else options.asked name := by
  rw [remaining, Fields.get?_erase, get?_compact hsorted]

theorem get?_remaining {options : Options} (hsorted : options.Sorted) {name : String}
    (hname : "eager_load" ≠ name) : (remaining options).get? name = options.asked name := by
  rw [get?_remaining_eq hsorted, if_neg hname]

/-- Setting an option that is none of a window leaves the window. -/
theorem sameWindow_insert_remaining {options : Options} (hsorted : options.Sorted) {name : String}
    (value : Json) (hname : name ∉ ["order", "offset", "limit"]) :
    Store.SameWindow ((remaining options).insert name value).get? options.asked := by
  have hget : ∀ other ∈ ["order", "offset", "limit"], "eager_load" ≠ other →
      ((remaining options).insert name value).get? other = options.asked other := by
    intro other hother heager
    have hne : name ≠ other := fun heq => hname (heq ▸ hother)
    rw [Fields.get?_insert_of_ne _ _ hne, get?_remaining hsorted heager]
  refine ⟨hget "order" ?_ ?_, hget "offset" ?_ ?_, hget "limit" ?_ ?_⟩ <;> decide

/-- An option that has to be a map states conditions. -/
theorem conditionsIn_of_requireMap {options : Options} {name : String} {value : Unit}
    (h : requireMap options name = .ok value) :
    ∃ conditions, Store.ConditionsIn (options.get? name) conditions := by
  unfold requireMap at h
  cases hvalue : options.get? name with
  | none => exact ⟨[], .none (.inl rfl)⟩
  | some found =>
    rw [hvalue] at h
    cases found with
    | object conditions => exact ⟨conditions, .map⟩
    | _ => cases h

end Options

namespace Request

theorem onlyValue_eq_ok_iff {otherwise : Nat → ArgumentProblem} {request : Request} {value : Json} :
    request.onlyValue otherwise = .ok value ↔ request.values = [value] := by
  unfold onlyValue
  split
  · next hvalues => simp [hvalues]
  · next values hvalues =>
    refine iff_of_false nofun ?_
    intro h
    exact hvalues value h

theorem onlyValue_congr (otherwise : Nat → ArgumentProblem) (values : List Json)
    (options other : Options) :
    onlyValue otherwise ⟨values, options⟩ = onlyValue otherwise ⟨values, other⟩ := rfl

end Request

end NamedQuery
