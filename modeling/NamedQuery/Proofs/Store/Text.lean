import NamedQuery.Proofs.Json.RoundTrip
import NamedQuery.Store.Reader
import NamedQuery.Store.Writer

/-! # Texts of stores read back

Reading takes apart what writing has put together, map by map (`map?_mapRecord`), down to rows and
relations. What is left to know of a store is that the names of all its maps ascend (`Ordered`), which
every step that builds a store keeps (`Built.ordered`). -/

namespace NamedQuery.Store

open Json (Canonical Document Within)

/-! ## Stores as they come -/

/-- A store that has been built up from values that are maps wherever they are objects, or read. -/
inductive Built : Store → Prop where
  | empty : Built empty
  | read {text : String} {store : Store} : ofText? text = some store → Built store
  | withTable {store : Store} (name : String) {rows : List Json} : (∀ row ∈ rows, row.Canonical) →
      Built store → Built (store.withTable name rows)
  | insertRow {store : Store} (table : String) {row : Row} : (Json.object row).Canonical →
      Built store → Built (store.insertRow table row)
  | relate {store : Store} (table name : String) (relation : Relation) :
      Built store → Built (store.relate table name relation)

def CanonicalRows (rows : List Row) : Prop :=
  ∀ row ∈ rows, (Json.object row).Canonical

theorem canonicalRows_nil : CanonicalRows [] :=
  fun _ h => absurd h List.not_mem_nil

/-- The maps of a store have ascending names, at all levels. -/
structure Ordered (store : Store) : Prop where
  tables : store.tables.Sorted
  rows : ∀ entry ∈ store.tables, CanonicalRows entry.2
  relations : store.relations.Sorted
  named : ∀ entry ∈ store.relations, Fields.Sorted entry.2

theorem Ordered.empty : Ordered empty where
  tables := Fields.sorted_nil
  rows := fun _ h => absurd h List.not_mem_nil
  relations := Fields.sorted_nil
  named := fun _ h => absurd h List.not_mem_nil

section

variable {store : Store} (h : store.Ordered)

include h

theorem Ordered.withTable (name : String) {rows : List Json} (hrows : ∀ row ∈ rows, row.Canonical) :
    (store.withTable name rows).Ordered where
  tables := h.tables.insert _ _
  rows := by
    refine Fields.forall_mem_insert h.rows ?_
    intro row hrow
    obtain ⟨value, hvalue, hobject⟩ := List.mem_filterMap.1 hrow
    -- Only objects have become rows.
    cases value with
    | object fields =>
      cases hobject
      exact hrows _ hvalue
    | _ => cases hobject
  relations := h.relations
  named := h.named

theorem Ordered.insertRow (table : String) {row : Row} (hrow : (Json.object row).Canonical) :
    (store.insertRow table row).Ordered where
  tables := h.tables.insert _ _
  rows := by
    have hold : CanonicalRows ((store.tables.get? table).getD []) :=
      Fields.getD_get?_of_forall h.rows canonicalRows_nil
    refine Fields.forall_mem_insert h.rows fun other hother => ?_
    rcases List.mem_append.1 hother with hother | hother
    · exact hold other hother
    · rw [List.mem_singleton.1 hother]
      exact hrow
  relations := h.relations
  named := h.named

theorem Ordered.relate (table name : String) (relation : Relation) :
    (store.relate table name relation).Ordered where
  tables := h.tables
  rows := h.rows
  relations := h.relations.insert _ _
  named := by
    have hold : Fields.Sorted ((store.relations.get? table).getD []) :=
      Fields.getD_get?_of_forall h.named Fields.sorted_nil
    exact Fields.forall_mem_insert h.named (hold.insert name relation)

end

theorem exists_of_mapM_eq_some {α β : Type} {read : α → Option β} {xs : List α} {ys : List β}
    (h : xs.mapM read = some ys) {y : β} (hy : y ∈ ys) : ∃ x ∈ xs, read x = some y := by
  induction xs generalizing ys with
  | nil =>
    cases h
    cases hy
  | cons x xs ih =>
    rw [List.mapM_cons] at h
    obtain ⟨first, hfirst, h⟩ := Option.bind_eq_some_iff.1 h
    obtain ⟨rest, hrest, h⟩ := Option.bind_eq_some_iff.1 h
    cases h
    rcases List.mem_cons.1 hy with rfl | hy
    · exact ⟨x, List.mem_cons_self .., hfirst⟩
    · obtain ⟨later, hlater, hread⟩ := ih hrest hy
      exact ⟨later, List.mem_cons_of_mem _ hlater, hread⟩

theorem map?_eq_some {α : Type} {read : Document → Option α} {document : Document}
    {fields : Fields α} (h : map? read document = some fields) :
    fields.Sorted ∧ ∀ entry ∈ fields, ∃ document, read document = some entry.2 := by
  unfold map? at h
  split at h
  · obtain ⟨entries, hentries, h⟩ := Option.bind_eq_some_iff.1 h
    cases h
    -- Of entries with one name only the last is left, but every entry that is left has been read.
    refine ⟨Fields.sorted_ofList entries, fun entry hentry => ?_⟩
    obtain ⟨⟨name?, document⟩, _, hread⟩ :=
      exists_of_mapM_eq_some hentries (Fields.mem_of_mem_ofList hentry)
    obtain ⟨name, _, hread⟩ := Option.bind_eq_some_iff.1 hread
    obtain ⟨value, hvalue, hread⟩ := Option.bind_eq_some_iff.1 hread
    cases hread
    exact ⟨document, hvalue⟩
  · cases h

theorem optionalMap?_eq_some {α : Type} {read : Document → Option α} {document : Option Document}
    {fields : Fields α} (h : optionalMap? read document = some fields) :
    fields.Sorted ∧ ∀ entry ∈ fields, ∃ document, read document = some entry.2 := by
  cases document with
  | none =>
    cases h
    exact ⟨Fields.sorted_nil, fun _ h => absurd h List.not_mem_nil⟩
  | some document => exact map?_eq_some h

theorem canonicalRows_of_readRows? {document : Document} {rows : List Row}
    (h : readRows? document = some rows) : CanonicalRows rows := by
  unfold readRows? at h
  split at h
  · intro row hrow
    obtain ⟨item, _, hread⟩ := exists_of_mapM_eq_some h hrow
    obtain ⟨value, hvalue, hobject⟩ := Option.bind_eq_some_iff.1 hread
    cases value with
    | object fields =>
      cases hobject
      exact Json.canonical_of_value? item hvalue
    | _ => cases hobject
  · cases h

theorem ordered_of_ofText? {text : String} {store : Store} (h : ofText? text = some store) :
    store.Ordered := by
  obtain ⟨document, _, h⟩ := Option.bind_eq_some_iff.1 h
  obtain ⟨fields, _, h⟩ := Option.bind_eq_some_iff.1 h
  split at h
  · obtain ⟨tables, htables, h⟩ := Option.bind_eq_some_iff.1 h
    obtain ⟨relations, hrelations, h⟩ := Option.bind_eq_some_iff.1 h
    cases h
    obtain ⟨htables, hrows⟩ := optionalMap?_eq_some htables
    obtain ⟨hrelations, hnamed⟩ := optionalMap?_eq_some hrelations
    refine ⟨htables, fun entry hentry => ?_, hrelations, fun entry hentry => ?_⟩
    · obtain ⟨_, hread⟩ := hrows entry hentry
      exact canonicalRows_of_readRows? hread
    · obtain ⟨_, hread⟩ := hnamed entry hentry
      exact (map?_eq_some hread).1
  · cases h

theorem Built.ordered {store : Store} (h : store.Built) : store.Ordered := by
  induction h with
  | empty => exact .empty
  | read h => exact ordered_of_ofText? h
  | withTable name hrows _ ih => exact ih.withTable name hrows
  | insertRow table hrow _ ih => exact ih.insertRow table hrow
  | relate table name relation _ ih => exact ih.relate table name relation

/-! ## Reading what has been written -/

theorem mapM_map_eq_some {α β : Type} {read : β → Option α} {write : α → β} {xs : List α}
    (h : ∀ x ∈ xs, read (write x) = some x) : (xs.map write).mapM read = some xs := by
  induction xs with
  | nil => rfl
  | cons x xs ih =>
    obtain ⟨hx, hxs⟩ := List.forall_mem_cons.1 h
    rw [List.map_cons, List.mapM_cons, hx, ih hxs]
    rfl

theorem map?_mapRecord {α : Type} {read : Document → Option α} {write : α → Json}
    {fields : Fields α} (hsorted : fields.Sorted)
    (h : ∀ entry ∈ fields, read (write entry.2).document = some entry.2) :
    map? read (mapRecord write fields).document = some fields := by
  have hdocument : (mapRecord write fields).document =
      .object (fields.map fun entry => (some entry.1, (write entry.2).document)) := by
    simp [mapRecord, Json.document, Function.comp_def]
  rw [hdocument, map?, mapM_map_eq_some fun entry hentry => by simp [h entry hentry],
    Option.bind_eq_bind, Option.bind_some, Fields.ofList_of_sorted hsorted]
  rfl

theorem readRelation?_record (relation : Relation) :
    readRelation? relation.record.document = some relation := by
  obtain ⟨table, foreignKey, kind⟩ := relation
  cases kind <;> rfl

theorem readRows?_record {rows : List Row}
    (h : ∀ row ∈ rows,
      (Json.object row).document.value? (Document.maxDepth - 3) = some (.object row)) :
    readRows? (rowsRecord rows).document = some rows := by
  rw [rowsRecord, Json.document, Json.documentItems_eq_map, List.map_map, readRows?]
  refine mapM_map_eq_some fun row hrow => ?_
  rw [Function.comp_apply, readRow?, h row hrow]
  rfl

theorem ofDocument?_record {store : Store} (h : store.Ordered)
    (hrows : ∀ entry ∈ store.tables, readRows? (rowsRecord entry.2).document = some entry.2) :
    ofDocument? store.record.document = some store := by
  have htables := map?_mapRecord h.tables hrows
  have hrelations := map?_mapRecord h.relations fun entry hentry =>
    map?_mapRecord (h.named entry hentry) fun entry _ => readRelation?_record entry.2
  -- Both fields are there, each of them once, so neither is defaulted.
  have hfields : fields? ["tables", "relations"] store.record.document =
      some [some (mapRecord rowsRecord store.tables).document,
        some (mapRecord (mapRecord Relation.record) store.relations).document] := rfl
  simp only [ofDocument?, hfields, optionalMap?, htables, hrelations, Option.bind_eq_bind,
    Option.bind_some]
  rfl

/-! ## Numbers in the text of a store -/

section

variable {n : Json.Number}

theorem within_mapRecord {α : Type} {write : α → Json} {fields : Fields α}
    (h : Within (.number n) (mapRecord write fields)) :
    ∃ entry ∈ fields, Within (.number n) (write entry.2) := by
  obtain heq | ⟨_, hmem, hwithin⟩ := Json.within_object_iff.1 h
  · cases heq
  · obtain ⟨entry, hentry, rfl⟩ := List.mem_map.1 hmem
    exact ⟨entry, hentry, hwithin⟩

theorem within_rowsRecord {rows : List Row} (h : Within (.number n) (rowsRecord rows)) :
    ∃ row ∈ rows, Within (.number n) (.object row) := by
  obtain heq | ⟨_, hmem, hwithin⟩ := Json.within_array_iff.1 h
  · cases heq
  · obtain ⟨row, hrow, rfl⟩ := List.mem_map.1 hmem
    exact ⟨row, hrow, hwithin⟩

theorem not_within_relationRecord (relation : Relation) : ¬ Within (.number n) relation.record := by
  have hstring : ∀ s, ¬ Within (.number n) (.string s) := by rintro s ⟨⟩
  simp [Relation.record, Json.within_object_iff, hstring]

/-- The numbers in the text of a store are those in its rows. -/
theorem exists_row_of_within {store : Store} (h : Within (.number n) store.record) :
    ∃ entry ∈ store.tables, ∃ row ∈ entry.2, Within (.number n) (.object row) := by
  obtain heq | ⟨_, hmem, hwithin⟩ := Json.within_object_iff.1 h
  · cases heq
  rcases List.mem_cons.1 hmem with rfl | hmem
  -- It is in the tables, since relations are made of texts alone.
  · obtain ⟨entry, hentry, hrows⟩ := within_mapRecord hwithin
    exact ⟨entry, hentry, within_rowsRecord hrows⟩
  · obtain rfl := List.mem_singleton.1 hmem
    obtain ⟨_, _, hnamed⟩ := within_mapRecord hwithin
    obtain ⟨entry, _, hrelation⟩ := within_mapRecord hnamed
    exact absurd hrelation (not_within_relationRecord entry.2)

end

/-! ## Texts -/

theorem mem_rows_iff {store : Store} (h : store.tables.Sorted) {table : String} {row : Row} :
    row ∈ store.rows table ↔ ∃ rows, (table, rows) ∈ store.tables ∧ row ∈ rows := by
  constructor
  · intro hrow
    unfold Store.rows at hrow
    cases hget : store.tables.get? table with
    | none => simp [hget] at hrow
    | some rows => exact ⟨rows, Fields.mem_of_get? hget, by simpa [hget] using hrow⟩
  · rintro ⟨rows, hrows, hrow⟩
    rw [Store.rows, h.get?_of_mem hrows]
    exact hrow

/-- However a store has been built, its compact text is read as this store, if its rows nest at
most 124 levels deep and the floating-point numbers in them read back. -/
theorem Built.text_reads_back {store : Store} (h : store.Built)
    (hdepth : ∀ table, ∀ row ∈ store.rows table, (Json.object row).depth ≤ 124)
    (hfloats : ∀ table, ∀ row ∈ store.rows table, ∀ x,
      Within (.number (.float x)) (.object row) → (Json.Number.float x).ReadsBack) :
    ofText? store.text = some store := by
  have hordered := h.ordered
  have hmem : ∀ entry ∈ store.tables, ∀ row ∈ entry.2, row ∈ store.rows entry.1 :=
    fun entry hentry row hrow => (mem_rows_iff hordered.tables).2 ⟨entry.2, hentry, hrow⟩
  have hnumbers : ∀ entry ∈ store.tables, ∀ row ∈ entry.2, ∀ n,
      Within (.number n) (.object row) → n.ReadsBack := fun entry hentry row hrow =>
    Json.readsBack_of_floats (hfloats entry.1 row (hmem entry hentry row hrow))
  have hdocument : Document.ofText? store.record.chars = some store.record.document :=
    Json.ofText?_chars store.record fun n hn => by
      obtain ⟨entry, hentry, row, hrow, hwithin⟩ := exists_row_of_within hn
      exact hnumbers entry hentry row hrow n hwithin
  rw [ofText?, text, Json.text, String.toList_ofList, hdocument, Option.bind_eq_bind,
    Option.bind_some]
  refine ofDocument?_record hordered fun entry hentry => readRows?_record fun row hrow => ?_
  -- A row stands three levels deep in the text, so it has three levels less than a text of its own.
  exact Json.value?_document (.object row) (hdepth entry.1 row (hmem entry hentry row hrow))
    (hordered.rows entry hentry row hrow) (hnumbers entry hentry row hrow)

/-- A row whose text needs escapes. -/
def crepe : Row := [
  ("", .string "a \"crêpe\"\n\x01"),
  ("cups", .number (.float ⟨false, 1022 * Numeric.block, by decide⟩)),
  ("id", .number (.integer (-0x8000000000000000))),
  ("steps", .array [.object []])]

def recipes : Store :=
  ((empty.withTable "recipes" [.object crepe]).withTable "drafts" []).relate "recipes" "author"
    ⟨"users", "author_id", .belongsTo⟩

theorem canonical_crepe : (Json.object crepe).Canonical := by
  refine Json.canonical_object (by unfold Fields.Sorted; decide) ?_
  simp only [crepe, List.forall_mem_cons, List.not_mem_nil, false_implies, implies_true, and_true]
  refine ⟨Json.canonical_of_leaf rfl rfl, Json.canonical_of_leaf rfl rfl,
    Json.canonical_of_leaf rfl rfl, Json.canonical_array ?_⟩
  simp only [List.mem_singleton, forall_eq]
  exact Json.canonical_object Fields.sorted_nil fun _ h => absurd h List.not_mem_nil

theorem readsBack_half : (Json.Number.float ⟨false, 1022 * Numeric.block, by decide⟩).ReadsBack := by
  have htext : (Json.Number.float ⟨false, 1022 * Numeric.block, by decide⟩).text = "0.5" := by
    decide +kernel
  refine Json.Number.readsBack_iff.2 ⟨⟨false, [0], some [5], none⟩, ?_, by decide +kernel⟩
  rw [htext]
  rfl

theorem float_within_crepe {x : Numeric.Binary64}
    (h : Within (.number (.float x)) (.object crepe)) : (Json.Number.float x).ReadsBack := by
  obtain heq | ⟨entry, hentry, hx⟩ := Json.within_object_iff.1 h
  · cases heq
  simp only [crepe, List.mem_cons, List.not_mem_nil, or_false] at hentry
  rcases hentry with rfl | rfl | rfl | rfl
  · cases hx
  · cases hx
    exact readsBack_half
  · cases hx
  · obtain heq | ⟨item, hitem, hx⟩ := Json.within_array_iff.1 hx
    · cases heq
    rw [List.mem_singleton.1 hitem] at hx
    obtain heq | ⟨_, hentry, _⟩ := Json.within_object_iff.1 hx
    · cases heq
    · cases hentry

theorem mem_rows_recipes {table : String} {row : Row} (h : row ∈ recipes.rows table) :
    row = crepe := by
  have htables : recipes.tables = [("drafts", []), ("recipes", [crepe])] := by rfl
  have hsorted : recipes.tables.Sorted := by
    rw [htables]
    unfold Fields.Sorted
    decide
  obtain ⟨rows, hrows, hrow⟩ := (mem_rows_iff hsorted).1 h
  rw [htables] at hrows
  rcases List.mem_pair.1 hrows with heq | heq
  · cases heq
    cases hrow
  · cases heq
    exact List.mem_singleton.1 hrow

theorem recipes_text_reads_back :
    recipes.Built ∧ (∀ table, ∀ row ∈ recipes.rows table, (Json.object row).depth ≤ 124) ∧
    (∀ table, ∀ row ∈ recipes.rows table, ∀ x,
      Within (.number (.float x)) (.object row) → (Json.Number.float x).ReadsBack) ∧
    ofText? recipes.text = some recipes := by
  have hbuilt : recipes.Built := by
    refine .relate _ _ _ (.withTable _ ?_ (.withTable _ ?_ .empty))
    · exact fun _ h => absurd h List.not_mem_nil
    · simpa only [List.mem_singleton, forall_eq] using canonical_crepe
  have hdepth : ∀ table, ∀ row ∈ recipes.rows table, (Json.object row).depth ≤ 124 := by
    intro table row hrow
    rw [mem_rows_recipes hrow]
    decide
  have hfloats : ∀ table, ∀ row ∈ recipes.rows table, ∀ x,
      Within (.number (.float x)) (.object row) → (Json.Number.float x).ReadsBack := by
    intro table row hrow x hx
    rw [mem_rows_recipes hrow] at hx
    exact float_within_crepe hx
  exact ⟨hbuilt, hdepth, hfloats, hbuilt.text_reads_back hdepth hfloats⟩

example : (empty.withTable "drafts" []).text =
    "\x7b\"tables\":\x7b\"drafts\":[]\x7d,\"relations\":\x7b\x7d\x7d" := by decide

end NamedQuery.Store
