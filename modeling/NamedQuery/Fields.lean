/-! # Named fields

Finite maps from names to values, as lists of pairs in ascending order of the names and without
repetition. Names are ordered by code points, which is also the order of their UTF-8 bytes.

The look-up laws hold for any list; `Sorted` is what `insert` keeps, and it makes the list the only
one with its fields. -/

namespace NamedQuery

/-- Values by name. -/
abbrev Fields (α : Type) := List (String × α)

namespace Fields

variable {α : Type}

def get? (fields : Fields α) (name : String) : Option α :=
  match fields with
  | [] => none
  | (key, value) :: rest => if key = name then some value else get? rest name

def contains (fields : Fields α) (name : String) : Bool :=
  (fields.get? name).isSome

def names (fields : Fields α) : List String :=
  fields.map Prod.fst

def insert (fields : Fields α) (name : String) (value : α) : Fields α :=
  match fields with
  | [] => [(name, value)]
  | (key, old) :: rest =>
    if name = key then (name, value) :: rest
    else if name < key then (name, value) :: (key, old) :: rest
    else (key, old) :: insert rest name value

def erase (fields : Fields α) (name : String) : Fields α :=
  fields.filter (·.1 ≠ name)

def insertAll (fields : Fields α) (entries : List (String × α)) : Fields α :=
  entries.foldl (fun fields (name, value) => fields.insert name value) fields

/-- The fields of a list of entries; of entries with one name the last counts. -/
def ofList (entries : List (String × α)) : Fields α :=
  insertAll [] entries

/-- Adds those entries of a list whose names have no value yet. -/
def complete (fields : Fields α) (entries : List (String × α)) : Fields α :=
  entries.foldl (fun fields (name, value) =>
    if fields.contains name then fields else fields.insert name value) fields

/-- The names ascend. -/
def Sorted (fields : Fields α) : Prop :=
  fields.Pairwise (·.1 < ·.1)

/-! ## Look-up -/

@[simp] theorem get?_nil (name : String) : get? ([] : Fields α) name = none := rfl

theorem get?_cons (key : String) (value : α) (rest : Fields α) (name : String) :
    get? ((key, value) :: rest) name = if key = name then some value else get? rest name := rfl

theorem get?_insert (fields : Fields α) (name : String) (value : α) (other : String) :
    (fields.insert name value).get? other = if name = other then some value else fields.get? other := by
  induction fields with
  | nil => rfl
  | cons entry rest ih =>
    obtain ⟨key, old⟩ := entry
    simp only [insert]
    split
    · next h => subst h; simp only [get?_cons]; split <;> rfl
    · split
      · simp only [get?_cons]
      · next hne _ =>
        simp only [get?_cons, ih]
        split
        · next hk =>
          subst hk
          simp [hne]
        · rfl

@[simp] theorem get?_insert_self (fields : Fields α) (name : String) (value : α) :
    (fields.insert name value).get? name = some value := by
  simp [get?_insert]

theorem get?_insert_of_ne (fields : Fields α) {name other : String} (value : α)
    (h : name ≠ other) : (fields.insert name value).get? other = fields.get? other := by
  simp [get?_insert, h]

theorem get?_erase (fields : Fields α) (name other : String) :
    (fields.erase name).get? other = if name = other then none else fields.get? other := by
  induction fields with
  | nil => simp [erase]
  | cons entry rest ih =>
    obtain ⟨key, value⟩ := entry
    simp only [erase, List.filter_cons] at ih ⊢
    by_cases hk : key = name
    · subst hk
      simp only [ne_eq, not_true_eq_false, decide_false, Bool.false_eq_true, if_false, ih,
        get?_cons]
      split <;> rfl
    · simp only [ne_eq, hk, not_false_eq_true, decide_true, if_true, get?_cons, ih]
      by_cases ho : key = other
      · subst ho
        simp [Ne.symm hk]
      · simp [ho]

/-! ## Order -/

theorem sorted_nil : Sorted ([] : Fields α) := List.Pairwise.nil

theorem mem_names_insert {fields : Fields α} {name : String} {value : α} {other : String}
    (h : other ∈ (fields.insert name value).names) : other = name ∨ other ∈ fields.names := by
  induction fields with
  | nil => simpa [insert, names] using h
  | cons entry rest ih =>
    obtain ⟨key, old⟩ := entry
    simp only [insert] at h
    split at h
    · simp only [names, List.map_cons, List.mem_cons] at h ⊢
      rcases h with h | h
      · exact .inl h
      · exact .inr (.inr h)
    · split at h
      · simpa [names] using h
      · simp only [names, List.map_cons, List.mem_cons] at h ih ⊢
        rcases h with h | h
        · exact .inr (.inl h)
        · rcases ih h with h | h
          · exact .inl h
          · exact .inr (.inr h)

theorem Sorted.insert {fields : Fields α} (h : fields.Sorted) (name : String) (value : α) :
    (fields.insert name value).Sorted := by
  induction fields with
  | nil => exact List.pairwise_singleton ..
  | cons entry rest ih =>
    obtain ⟨key, old⟩ := entry
    obtain ⟨hhead, htail⟩ := List.pairwise_cons.1 h
    simp only [Fields.insert]
    split
    · next heq => subst heq; exact List.pairwise_cons.2 ⟨hhead, htail⟩
    · split
      · next hlt =>
        refine List.pairwise_cons.2 ⟨fun entry hentry => ?_, h⟩
        rcases List.mem_cons.1 hentry with rfl | hmem
        · exact hlt
        · exact String.lt_trans hlt (hhead entry hmem)
      · next hne hnlt =>
        refine List.pairwise_cons.2 ⟨fun entry hentry => ?_, ih htail⟩
        rcases mem_names_insert (List.mem_map_of_mem (f := Prod.fst) hentry) with hname | hname
        · rw [hname]
          exact String.not_le.1 fun hle => hne (String.le_antisymm hle (String.not_lt.1 hnlt))
        · obtain ⟨old', hmem, heq⟩ := List.mem_map.1 hname
          rw [← heq]
          exact hhead old' hmem

theorem Sorted.erase {fields : Fields α} (h : fields.Sorted) (name : String) :
    (fields.erase name).Sorted :=
  List.Pairwise.filter _ h

theorem Sorted.insertAll {fields : Fields α} (h : fields.Sorted) (entries : List (String × α)) :
    (fields.insertAll entries).Sorted := by
  induction entries generalizing fields with
  | nil => exact h
  | cons entry rest ih => exact ih (h.insert entry.1 entry.2)

theorem sorted_ofList (entries : List (String × α)) : (ofList entries).Sorted :=
  sorted_nil.insertAll entries

end Fields

end NamedQuery
