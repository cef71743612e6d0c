import NamedQuery.Store.Selection

/-! # What conditions and relations mean

`Meets` says what a condition expects of a field, `MeetsAll` what conditions expect of a row, and
`Related` which rows a relation connects. The functions that a store evaluates decide these
(`satisfies_iff_meets`, `satisfiesAll_iff_meetsAll`, `mem_related_iff`). `Kept` is the list that a
filter leaves, named by the property that it keeps. -/

namespace NamedQuery.Store

/-! ## Conditions -/

/-- What a condition expects of the value of a field, which may be missing. -/
inductive Meets (actual : Option Json) : Json → Prop where
  /-- Null expects nothing, or null. -/
  | missing : actual = none ∨ actual = some .null → Meets actual .null
  /-- A list expects any of its members. -/
  | member {items : List Json} {item : Json} :
      item ∈ items → Meets actual item → Meets actual (.array items)
  /-- Anything else expects a value that loosely equals it. -/
  | value {expected found : Json} :
      expected ≠ .null → (∀ items, expected ≠ .array items) →
      actual = some found → looselyEqual found expected → Meets actual expected

theorem any_looselyEqual_iff_meets {actual : Option Json} {expected : Json}
    (hnull : expected ≠ .null) (harray : ∀ items, expected ≠ .array items) :
    (actual.any fun found => looselyEqual found expected) ↔ Meets actual expected := by
  rw [Option.any_eq_true_iff_get]
  constructor
  · rintro ⟨hsome, hequal⟩
    exact .value hnull harray (Option.some_get hsome).symm hequal
  · intro h
    cases h with
    | missing _ => exact absurd rfl hnull
    | member _ _ => exact absurd rfl (harray _)
    | value _ _ hactual hequal =>
      subst hactual
      exact ⟨rfl, hequal⟩

theorem all_isNull_iff_meets (actual : Option Json) :
    actual.all Json.isNull ↔ Meets actual .null := by
  constructor
  · intro h
    cases actual with
    | none => exact .missing (.inl rfl)
    | some found =>
      cases found <;> first | exact .missing (.inr rfl) | cases h
  · intro h
    cases h with
    | missing hmissing => rcases hmissing with rfl | rfl <;> rfl
    | value hnull => exact absurd rfl hnull

mutual
/-- `satisfies` decides what a condition expects. -/
theorem satisfies_iff_meets (actual : Option Json) :
    ∀ expected : Json, satisfies actual expected ↔ Meets actual expected
  | .array items => by
    rw [satisfies, satisfiesAny_iff_meets actual items]
    constructor
    · rintro ⟨item, hmem, hmeets⟩
      exact .member hmem hmeets
    · intro h
      cases h with
      | member hmem hmeets => exact ⟨_, hmem, hmeets⟩
      | value _ harray => exact absurd rfl (harray items)
  | .null => by rw [satisfies]; exact all_isNull_iff_meets actual
  | .bool _ => by rw [satisfies]; exact any_looselyEqual_iff_meets nofun nofun
  | .number _ => by rw [satisfies]; exact any_looselyEqual_iff_meets nofun nofun
  | .string _ => by rw [satisfies]; exact any_looselyEqual_iff_meets nofun nofun
  | .object _ => by rw [satisfies]; exact any_looselyEqual_iff_meets nofun nofun
theorem satisfiesAny_iff_meets (actual : Option Json) :
    ∀ items : List Json, satisfiesAny actual items ↔ ∃ item ∈ items, Meets actual item
  | [] => by simp [satisfiesAny]
  | item :: rest => by
    rw [satisfiesAny, Bool.or_eq_true, satisfies_iff_meets actual item,
      satisfiesAny_iff_meets actual rest]
    simp
end

def MeetsAll (conditions : Fields Json) (row : Row) : Prop :=
  ∀ entry ∈ conditions, Meets (row.get? entry.1) entry.2

theorem satisfiesAll_iff_meetsAll {conditions : Fields Json} {row : Row} :
    satisfiesAll conditions row ↔ MeetsAll conditions row := by
  rw [satisfiesAll, List.all_eq_true]
  constructor
  · intro h entry hentry
    exact (satisfies_iff_meets _ _).1 (h entry hentry)
  · intro h entry hentry
    exact (satisfies_iff_meets _ _).2 (h entry hentry)

/-! ## Relations -/

theorem hasKey_iff {row : Row} {field : String} {key : Json} :
    hasKey row field key ↔ ∃ found, row.get? field = some found ∧ looselyEqual found key := by
  rw [hasKey, Option.any_eq_true_iff_get]
  constructor
  · rintro ⟨hsome, hequal⟩
    exact ⟨_, (Option.some_get hsome).symm, hequal⟩
  · rintro ⟨found, hfound, hequal⟩
    exact ⟨by rw [hfound]; rfl, by simpa [hfound] using hequal⟩

/-- A relation connects a row with a row of the other table: the one has a key that is not null,
and the other a value that loosely equals it. -/
def Related (store : Store) (relation : Relation) (x y : Row) : Prop :=
  y ∈ store.rows relation.table ∧
    ∃ key, x.get? (Relation.fields relation).1 = some key ∧ key ≠ .null ∧
      ∃ found, y.get? (Relation.fields relation).2 = some found ∧ looselyEqual found key

theorem related_of_key {store : Store} {relation : Relation} {x : Row} {key : Json}
    (hkey : x.get? (Relation.fields relation).1 = some key) (hnull : key ≠ .null) :
    related store relation x =
      (store.rows relation.table).filter (hasKey · (Relation.fields relation).2 key) := by
  unfold related
  simp only [hkey]

theorem related_of_noKey {store : Store} {relation : Relation} {x : Row}
    (hkey : ∀ key, x.get? (Relation.fields relation).1 = some key → key = .null) :
    related store relation x = [] := by
  unfold related
  simp only []
  cases hget : x.get? (Relation.fields relation).1 with
  | none => rfl
  | some key =>
    obtain rfl := hkey key hget
    rfl

theorem related_sublist (store : Store) (relation : Relation) (row : Row) :
    (related store relation row).Sublist (store.rows relation.table) := by
  unfold related
  simp only []
  split
  · exact List.nil_sublist _
  · exact List.nil_sublist _
  · exact List.filter_sublist

/-- `related` finds the rows that a relation connects with a row. -/
theorem mem_related_iff {store : Store} {relation : Relation} {x y : Row} :
    y ∈ related store relation x ↔ Related store relation x y := by
  by_cases hkey : ∃ key, x.get? (Relation.fields relation).1 = some key ∧ key ≠ .null
  · obtain ⟨key, hkey, hnull⟩ := hkey
    rw [related_of_key hkey hnull, List.mem_filter, hasKey_iff]
    constructor
    · rintro ⟨hmem, found, hfound, hequal⟩
      exact ⟨hmem, key, hkey, hnull, found, hfound, hequal⟩
    · rintro ⟨hmem, key', hkey', _, found, hfound, hequal⟩
      obtain rfl := Option.some.inj (hkey.symm.trans hkey')
      exact ⟨hmem, found, hfound, hequal⟩
  · -- Without a key the row leads nowhere, and nothing is related to it.
    have hnull : ∀ key, x.get? (Relation.fields relation).1 = some key → key = .null :=
      fun key hget => Classical.byContradiction fun hnull => hkey ⟨key, hget, hnull⟩
    rw [related_of_noKey hnull]
    constructor
    · intro h; cases h
    · rintro ⟨_, key, hget, hnull, _⟩
      exact absurd ⟨key, hget, hnull⟩ hkey

/-! ## Filters -/

/-- The members of a list with a property, each as often and in the order as it stands there. -/
def Kept {α : Type} (property : α → Prop) (list kept : List α) : Prop :=
  ∃ keep : α → Bool, (∀ x, keep x ↔ property x) ∧ kept = list.filter keep

theorem kept_filter {α : Type} {property : α → Prop} {keep : α → Bool}
    (h : ∀ x, keep x ↔ property x) (list : List α) : Kept property list (list.filter keep) :=
  ⟨keep, h, rfl⟩

theorem Kept.unique {α : Type} {property : α → Prop} {list kept kept' : List α}
    (h : Kept property list kept) (h' : Kept property list kept') : kept = kept' := by
  obtain ⟨keep, hkeep, rfl⟩ := h
  obtain ⟨keep', hkeep', rfl⟩ := h'
  refine List.filter_congr fun x _ => ?_
  rw [Bool.eq_iff_iff, hkeep, hkeep']

theorem kept_congr {α : Type} {property property' : α → Prop} (h : ∀ x, property x ↔ property' x)
    {list kept : List α} : Kept property list kept ↔ Kept property' list kept := by
  unfold Kept
  simp only [h]

/-! ## A small store -/

/-- Users, their posts, and the comments on these. -/
def blog : Store where
  tables := [
    ("comments", [
      [("id", .number (.integer 20)), ("post_id", .number (.integer 11))],
      [("id", .number (.integer 21)), ("post_id", .number (.integer 10))]]),
    ("posts", [
      [("id", .number (.integer 10)), ("user_id", .number (.integer 1))],
      [("id", .number (.integer 11)), ("user_id", .number (.integer 1))],
      [("id", .number (.integer 12)), ("user_id", .number (.integer 3))]]),
    ("users", [
      [("id", .number (.integer 1)), ("role", .string "author")],
      [("id", .number (.integer 2)), ("role", .string "reader")],
      [("id", .number (.integer 3)), ("role", .string "author")]])]
  relations := [
    ("posts", [
      ("comments", ⟨"comments", "post_id", .hasMany⟩),
      ("user", ⟨"users", "user_id", .belongsTo⟩)]),
    ("users", [("posts", ⟨"posts", "user_id", .hasMany⟩)])]

end NamedQuery.Store
