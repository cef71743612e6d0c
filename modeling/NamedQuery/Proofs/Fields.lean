import NamedQuery.Json.Basic

/-! # Laws of named fields

Looking up what filters, `insertAll` and `complete` leave, and the entries that `complete` adds. Maps
are equal if the same is found in them (`Sorted.ext`). -/

namespace NamedQuery

namespace Fields

variable {α : Type}

/-! ## Entries and values -/

theorem mem_of_get? {fields : Fields α} {name : String} {value : α}
    (h : fields.get? name = some value) : (name, value) ∈ fields := by
  induction fields with
  | nil => cases h
  | cons entry rest ih =>
    obtain ⟨key, found⟩ := entry
    rw [get?_cons] at h
    split at h
    · next heq =>
      cases h
      rw [heq]
      exact List.mem_cons_self ..
    · exact List.mem_cons_of_mem _ (ih h)

theorem get?_eq_none_of_names {fields : Fields α} {name : String} (h : name ∉ fields.names) :
    fields.get? name = none := by
  cases hget : fields.get? name with
  | none => rfl
  | some value => exact absurd (List.mem_map_of_mem (mem_of_get? hget)) h

theorem notMem_names_of_get? {fields : Fields α} {name : String} (h : fields.get? name = none) :
    name ∉ fields.names := by
  induction fields with
  | nil => exact List.not_mem_nil
  | cons entry rest ih =>
    obtain ⟨key, found⟩ := entry
    rw [get?_cons] at h
    split at h
    · cases h
    · next hkey =>
      rintro (_ | ⟨_, hmem⟩)
      · exact hkey rfl
      · exact ih h hmem

/-- No name occurs twice. -/
theorem Sorted.nodup_names {fields : Fields α} (h : fields.Sorted) : fields.names.Nodup := by
  refine List.pairwise_map.2 (h.imp ?_)
  intro earlier later hlt heq
  rw [heq] at hlt
  exact String.lt_irrefl _ hlt

theorem Sorted.get?_of_mem {fields : Fields α} (h : fields.Sorted) {name : String} {value : α}
    (hmem : (name, value) ∈ fields) : fields.get? name = some value := by
  induction fields with
  | nil => cases hmem
  | cons entry rest ih =>
    rcases List.mem_cons.1 hmem with rfl | hrest
    · rw [get?_cons, if_pos rfl]
    · have hlt : entry.1 < name := (List.pairwise_cons.1 h).1 _ hrest
      rw [get?_cons, if_neg fun heq => String.lt_irrefl _ (heq ▸ hlt)]
      exact ih (List.pairwise_cons.1 h).2 hrest

/-! ## Filters -/

theorem get?_filter {fields : Fields α} (hsorted : fields.Sorted) (keep : α → Bool) (name : String) :
    get? (fields.filter fun entry => keep entry.2) name = (fields.get? name).filter keep := by
  induction fields with
  | nil => rfl
  | cons entry rest ih =>
    obtain ⟨key, value⟩ := entry
    obtain ⟨hhead, htail⟩ := List.pairwise_cons.1 hsorted
    rw [List.filter_cons, get?_cons]
    split
    · next hkeep =>
      rw [get?_cons, ih htail]
      split
      · rw [Option.filter_some, if_pos hkeep]
      · rfl
    · next hkeep =>
      rw [ih htail]
      split
      · next heq =>
        -- The name is gone with its entry: it does not occur again.
        have hnone : get? rest name = none := by
          refine get?_eq_none_of_names fun hmem => ?_
          obtain ⟨later, hlater, hname⟩ := List.mem_map.1 hmem
          have hlt := hhead later hlater
          rw [hname, ← heq] at hlt
          exact String.lt_irrefl _ hlt
        rw [hnone, Option.filter_some, if_neg hkeep, Option.filter_none]
      · rfl

/-! ## Setting one after another -/

/-- Of entries with one name the last counts. -/
theorem get?_insertAll (fields : Fields α) (entries : List (String × α)) (name : String) :
    (fields.insertAll entries).get? name =
      ((entries.filter (·.1 = name)).getLast?.map Prod.snd).or (fields.get? name) := by
  induction entries generalizing fields with
  | nil => rfl
  | cons entry rest ih =>
    obtain ⟨key, value⟩ := entry
    show Fields.get? ((fields.insert key value).insertAll rest) name = _
    rw [ih, get?_insert, List.filter_cons]
    by_cases hkey : key = name
    · simp only [hkey, decide_true, if_true, List.getLast?_cons]
      cases (rest.filter (·.1 = name)).getLast? <;> rfl
    · simp only [hkey, decide_false, Bool.false_eq_true, if_false]

theorem get?_ofList (entries : List (String × α)) (name : String) :
    (ofList entries).get? name = (entries.filter (·.1 = name)).getLast?.map Prod.snd := by
  rw [ofList, get?_insertAll, get?_nil, Option.or_none]

theorem insert_of_last {fields : Fields α} {name : String} (h : ∀ entry ∈ fields, entry.1 < name)
    (value : α) : fields.insert name value = fields ++ [(name, value)] := by
  induction fields with
  | nil => rfl
  | cons entry rest ih =>
    have hlt : entry.1 < name := h entry (List.mem_cons_self ..)
    have hne : name ≠ entry.1 := fun heq => String.lt_irrefl _ (heq ▸ hlt)
    rw [insert, if_neg hne, if_neg (String.lt_asymm hlt),
      ih fun later hlater => h later (List.mem_cons_of_mem _ hlater), List.cons_append]

theorem insertAll_of_sorted {fields entries : Fields α} (h : Sorted (fields ++ entries)) :
    fields.insertAll entries = fields ++ entries := by
  induction entries generalizing fields with
  | nil => exact (List.append_nil _).symm
  | cons entry rest ih =>
    have hlast : ∀ earlier ∈ fields, earlier.1 < entry.1 := fun earlier hearlier =>
      (List.pairwise_append.1 h).2.2 earlier hearlier entry (List.mem_cons_self ..)
    show (fields.insert entry.1 entry.2).insertAll rest = _
    rw [List.append_cons] at h ⊢
    rw [insert_of_last hlast, ih h]

theorem ofList_of_sorted {fields : Fields α} (h : fields.Sorted) : ofList fields = fields :=
  insertAll_of_sorted h

theorem eq_or_mem_of_mem_insert {fields : Fields α} {name : String} {value : α}
    {entry : String × α} (h : entry ∈ fields.insert name value) :
    entry = (name, value) ∨ entry ∈ fields := by
  induction fields with
  | nil => exact .inl (List.mem_singleton.1 h)
  | cons first rest ih =>
    simp only [insert] at h
    split at h
    · exact (List.mem_cons.1 h).imp_right (List.mem_cons_of_mem _)
    · split at h
      · exact List.mem_cons.1 h
      · rcases List.mem_cons.1 h with rfl | h
        · exact .inr (List.mem_cons_self ..)
        · exact (ih h).imp_right (List.mem_cons_of_mem _)

theorem forall_mem_insert {p : α → Prop} {fields : Fields α} (h : ∀ entry ∈ fields, p entry.2)
    {name : String} {value : α} (hvalue : p value) :
    ∀ entry ∈ fields.insert name value, p entry.2 := by
  intro entry hentry
  rcases eq_or_mem_of_mem_insert hentry with rfl | hentry
  · exact hvalue
  · exact h entry hentry

theorem getD_get?_of_forall {p : α → Prop} {fields : Fields α} (h : ∀ entry ∈ fields, p entry.2)
    {name : String} {default : α} (hdefault : p default) : p ((fields.get? name).getD default) := by
  cases hget : fields.get? name with
  | none => exact hdefault
  | some value => exact h (name, value) (mem_of_get? hget)

theorem mem_of_mem_insertAll {fields entries : Fields α} {entry : String × α}
    (h : entry ∈ fields.insertAll entries) : entry ∈ fields ∨ entry ∈ entries := by
  induction entries generalizing fields with
  | nil => exact .inl h
  | cons first rest ih =>
    rcases ih h with h | h
    · rcases eq_or_mem_of_mem_insert h with rfl | h
      · exact .inr (List.mem_cons_self ..)
      · exact .inl h
    · exact .inr (List.mem_cons_of_mem _ h)

theorem mem_of_mem_ofList {entries : List (String × α)} {entry : String × α}
    (h : entry ∈ ofList entries) : entry ∈ entries :=
  (mem_of_mem_insertAll h).resolve_left List.not_mem_nil

/-! ## Completion -/

theorem get?_complete (fields entries : Fields α) (name : String) :
    (fields.complete entries).get? name = (fields.get? name).or (entries.get? name) := by
  induction entries generalizing fields with
  | nil => simp [complete]
  | cons entry rest ih =>
    obtain ⟨key, value⟩ := entry
    rw [get?_cons]
    show (Fields.complete (if fields.contains key then fields else fields.insert key value) rest).get?
      name = _
    rw [ih]
    by_cases hcontains : fields.contains key
    · rw [if_pos hcontains]
      by_cases hkey : key = name
      · subst hkey
        obtain ⟨old, hold⟩ := Option.isSome_iff_exists.1 hcontains
        rw [hold, Option.some_or, Option.some_or]
      · rw [if_neg hkey]
    · -- Only a name without a value is set, so what was there before counts first.
      rw [if_neg hcontains, get?_insert]
      by_cases hkey : key = name
      · subst hkey
        have hnone : fields.get? key = none := by simpa [contains] using hcontains
        rw [if_pos rfl, if_pos rfl, hnone, Option.some_or, Option.none_or]
      · rw [if_neg hkey, if_neg hkey]

theorem contains_iff_mem_names {fields : Fields α} {name : String} :
    fields.contains name ↔ name ∈ fields.names := by
  unfold contains
  induction fields with
  | nil => simp [names]
  | cons entry rest ih =>
    obtain ⟨key, value⟩ := entry
    rw [get?_cons, names, List.map_cons, List.mem_cons]
    by_cases hkey : key = name
    · rw [if_pos hkey]
      exact ⟨fun _ => .inl hkey.symm, fun _ => rfl⟩
    · rw [if_neg hkey, ih]
      constructor
      · intro h
        exact .inr h
      · rintro (rfl | h)
        · exact absurd rfl hkey
        · exact h

theorem mem_insert_iff {fields : Fields α} {name : String} {value : α} (h : name ∉ fields.names)
    {entry : String × α} :
    entry ∈ fields.insert name value ↔ entry = (name, value) ∨ entry ∈ fields := by
  induction fields with
  | nil => simp [insert]
  | cons first rest ih =>
    obtain ⟨key, old⟩ := first
    have hkey : name ≠ key := by
      rintro rfl
      exact h (List.mem_cons_self ..)
    have hrest : name ∉ names rest := fun hmem => h (List.mem_cons_of_mem _ hmem)
    simp only [insert]
    rw [if_neg hkey]
    split
    · exact List.mem_cons
    · rw [List.mem_cons, List.mem_cons, ih hrest]
      exact or_left_comm

theorem names_insert_iff {fields : Fields α} {name : String} {value : α} (h : name ∉ fields.names)
    {other : String} :
    other ∈ (fields.insert name value).names ↔ other = name ∨ other ∈ fields.names := by
  refine ⟨mem_names_insert, ?_⟩
  rintro (rfl | hmem)
  · exact List.mem_map_of_mem (f := Prod.fst) ((mem_insert_iff h).2 (.inl rfl))
  · obtain ⟨entry, hentry, rfl⟩ := List.mem_map.1 hmem
    exact List.mem_map_of_mem (f := Prod.fst) ((mem_insert_iff h).2 (.inr hentry))

theorem length_insert {fields : Fields α} {name : String} (value : α) (h : name ∉ fields.names) :
    (fields.insert name value).length = fields.length + 1 := by
  induction fields with
  | nil => rfl
  | cons first rest ih =>
    obtain ⟨key, old⟩ := first
    have hkey : name ≠ key := by
      rintro rfl
      exact h (List.mem_cons_self ..)
    have hrest : name ∉ names rest := fun hmem => h (List.mem_cons_of_mem _ hmem)
    simp only [insert, if_neg hkey]
    split
    · rfl
    · simp [ih hrest]

/-- Completing keeps all entries and adds those with new names. -/
theorem mem_complete_iff {fields entries : Fields α} {entry : String × α} :
    entry ∈ fields.complete entries ↔
      entry ∈ fields ∨ (entry.1 ∉ fields.names ∧ entries.get? entry.1 = some entry.2) := by
  induction entries generalizing fields with
  | nil => simp [complete]
  | cons first rest ih =>
    obtain ⟨key, value⟩ := first
    obtain ⟨name, found⟩ := entry
    show (name, found) ∈
      Fields.complete (if fields.contains key then fields else fields.insert key value) rest ↔ _
    -- Of several entries under one key the first is the one that counts.
    rw [get?_cons]
    by_cases hkey : key = name
    · subst hkey
      rw [if_pos rfl, Option.some_inj]
      by_cases hmem : key ∈ fields.names
      · rw [if_pos (contains_iff_mem_names.2 hmem), ih]
        simp [hmem]
      · rw [if_neg (fun h => hmem (contains_iff_mem_names.1 h)), ih, mem_insert_iff hmem,
          names_insert_iff hmem]
        simp [hmem, or_comm, eq_comm]
    · rw [if_neg hkey]
      by_cases hmem : key ∈ fields.names
      · rw [if_pos (contains_iff_mem_names.2 hmem), ih]
      · rw [if_neg (fun h => hmem (contains_iff_mem_names.1 h)), ih, mem_insert_iff hmem,
          names_insert_iff hmem]
        simp [Ne.symm hkey]

theorem Sorted.complete {fields : Fields α} (h : fields.Sorted) (entries : Fields α) :
    (fields.complete entries).Sorted := by
  induction entries generalizing fields with
  | nil => exact h
  | cons entry rest ih =>
    show Sorted (Fields.complete
      (if fields.contains entry.1 then fields else fields.insert entry.1 entry.2) rest)
    split
    · exact ih h
    · exact ih (h.insert _ _)

/-! ## Equality -/

theorem Sorted.get?_tail {key : String} {value : α} {rest : Fields α}
    (h : Sorted ((key, value) :: rest)) {name : String} (hname : ¬ key < name) :
    get? rest name = none := by
  refine get?_eq_none_of_names fun hmem => ?_
  obtain ⟨entry, hentry, rfl⟩ := List.mem_map.1 hmem
  exact hname ((List.pairwise_cons.1 h).1 entry hentry)

/-- Ascending names make a list the only one with its fields. -/
theorem Sorted.ext {fields other : Fields α} (h : fields.Sorted) (h' : other.Sorted)
    (hget : ∀ name, fields.get? name = other.get? name) : fields = other := by
  induction fields generalizing other with
  | nil =>
    cases other with
    | nil => rfl
    | cons entry rest =>
      have hhead := hget entry.1
      rw [get?_nil, get?_cons, if_pos rfl] at hhead
      cases hhead
  | cons entry rest ih =>
    obtain ⟨key, value⟩ := entry
    have hhead := hget key
    rw [get?_cons, if_pos rfl] at hhead
    cases other with
    | nil => cases hhead
    | cons entry' rest' =>
      obtain ⟨key', value'⟩ := entry'
      have hhead' := hget key'
      rw [get?_cons, get?_cons, if_pos (rfl : key' = key')] at hhead'
      have hkey : key = key' := by
        refine Decidable.byContradiction fun hne => ?_
        rw [if_neg hne] at hhead'
        rw [get?_cons, if_neg (Ne.symm hne)] at hhead
        -- Each of the two names would stand behind the other.
        have hlt : key < key' := by
          refine Decidable.byContradiction fun hnot => ?_
          rw [h.get?_tail hnot] at hhead'
          cases hhead'
        rw [h'.get?_tail (String.lt_asymm hlt)] at hhead
        cases hhead
      subst hkey
      rw [get?_cons, if_pos rfl] at hhead
      cases hhead
      rw [ih (List.pairwise_cons.1 h).2 (List.pairwise_cons.1 h').2 fun name => ?_]
      by_cases hname : key < name
      · have hrest := hget name
        have hne : key ≠ name := fun heq => String.lt_irrefl _ (heq ▸ hname)
        rwa [get?_cons, get?_cons, if_neg hne, if_neg hne] at hrest
      · rw [h.get?_tail hname, h'.get?_tail hname]

theorem Sorted.filter {fields : Fields α} (h : fields.Sorted) (keep : String × α → Bool) :
    Sorted (fields.filter keep) :=
  List.Pairwise.filter _ h

end Fields

end NamedQuery
