import NamedQuery.Proofs.Store.Embedding
import NamedQuery.Proofs.Store.Origin
import NamedQuery.Proofs.Store.Text

/-! # The order of names in a call for embedding

Relations are embedded one after another in the same row, and a relation looks for related rows by a
field of this row as it is then. So the order of the names does not matter as long as none of the
relations looks at a field that has one of the names (`KeysApart`): then all of them see the row as it
was fetched (`get?_embed_of_keysApart`). If one does, there are rows for which the order matters
(`exists_not_orderFree`). -/

namespace NamedQuery.Store

variable {store : Store} {table : String} {names names' : List String} {relation : Relation}

/-! ## Rows with ascending fields -/

theorem Ordered.sorted_of_mem_rows (h : store.Ordered) {row : Row} (hrow : row ∈ store.rows table) :
    Fields.Sorted row := by
  have hrows : CanonicalRows (store.rows table) :=
    Fields.getD_get?_of_forall h.rows canonicalRows_nil
  exact hrows row hrow row .itself

/-- The fields of all rows that are selected ascend. -/
def SortedRows (store : Store) (selection : Selection) : Prop :=
  ∀ row ∈ selection.rows store, Fields.Sorted row

theorem sorted_embed (relations : List (String × Relation)) {row : Row} (h : Fields.Sorted row) :
    Fields.Sorted (embed store relations row) := by
  induction relations generalizing row with
  | nil => exact h
  | cons entry rest ih => exact ih (h.insert _ _)

/-- A step selects among the rows that were selected before, or among those of a table. -/
theorem rows_of_selects {selection next : Selection} (h : Selects store selection next) :
    next.rows store ⊆ selection.rows store ∨ next.rows store ⊆ store.rows next.tableName := by
  cases h with
  | get hget => exact .inl (get_subperm hget).2.subset
  | findAll hfind => exact .inl (findAll_subperm hfind).2.subset
  | first hfirst => exact .inl (first_subperm hfirst).2.subset
  | join hjoin => exact .inl (join_subperm hjoin).2.subset
  | hop hhop => exact .inr (hop_reaches hhop).2

theorem sortedRows_eagerLoad {options : Options} {selection next : Selection}
    (hembed : eagerLoad store options selection = .ok next) (h : store.SortedRows selection) :
    store.SortedRows next := by
  obtain ⟨relations, hresolve, -⟩ := bind_eq_ok_iff.1 hembed
  obtain ⟨_, hnext, -, -, hrows⟩ := exists_eagerLoad_eq_ok hresolve
  obtain rfl := Except.ok.inj (hembed.symm.trans hnext)
  intro row hrow
  rw [hrows] at hrow
  obtain ⟨source, hsource, rfl⟩ := List.mem_map.1 hrow
  exact sorted_embed relations (h source hsource)

/-- Whatever is called, fields ascend in the rows that are selected. -/
theorem Ordered.sortedRows_selected (h : store.Ordered) (opened : String) (earlier : List Call) :
    store.SortedRows (store.selected opened earlier) := by
  refine selectionAfter_keeps (P := store.SortedRows) (fun hselects hsorted row hrow => ?_)
    (fun _ _ _ _ _ hembed hsorted => sortedRows_eagerLoad hembed hsorted)
    fun row hrow => h.sorted_of_mem_rows hrow
  rcases rows_of_selects hselects with hsubset | hsubset
  · exact hsorted row (hsubset hrow)
  · exact h.sorted_of_mem_rows (hsubset hrow)

/-! ## What a relation looks at -/

/-- Related rows are found by one field. -/
theorem related_congr {x y : Row}
    (h : x.get? (Relation.fields relation).1 = y.get? (Relation.fields relation).1) :
    related store relation x = related store relation y := by
  unfold related
  simp only [h]

/-- No relation among the names looks at a field that has one of the names. -/
def KeysApart (store : Store) (table : String) (names : List String) : Prop :=
  ∀ name ∈ names, ∀ relation, store.relation? table name = some relation →
    (Relation.fields relation).1 ∉ names

/-- The value that a relation embeds in a row: all rows that are related to it, in the order of the
table, or the first one, or null if there is none. -/
inductive EmbedsRelated (store : Store) (relation : Relation) (x : Row) : Json → Prop where
  | all {rows : List Row} : relation.kind = .hasMany →
      Kept (Related store relation x) (store.rows relation.table) rows →
      EmbedsRelated store relation x (.array (rows.map .object))
  | first {row : Row} : relation.kind = .belongsTo →
      First (Related store relation x) (store.rows relation.table) row →
      EmbedsRelated store relation x (.object row)
  | nothing : relation.kind = .belongsTo → (∀ y, ¬ Related store relation x y) →
      EmbedsRelated store relation x .null

open Classical in
theorem kept_related (store : Store) (relation : Relation) (x : Row) :
    Kept (Related store relation x) (store.rows relation.table) (related store relation x) := by
  refine ⟨fun y => decide (Related store relation x y), fun y => decide_eq_true_iff, ?_⟩
  by_cases hkey : ∃ key, x.get? (Relation.fields relation).1 = some key ∧ key ≠ .null
  · obtain ⟨key, hkey, hnull⟩ := hkey
    have hrelated : related store relation x = _ := related_of_key hkey hnull
    rw [hrelated]
    refine List.filter_congr fun y hy => ?_
    rw [Bool.eq_iff_iff, decide_eq_true_iff, ← mem_related_iff, hrelated, List.mem_filter]
    exact ⟨fun h => ⟨hy, h⟩, fun h => h.2⟩
  · have hnone : ∀ y, ¬ Related store relation x y :=
      fun y ⟨_, key, hget, hnull, _⟩ => hkey ⟨key, hget, hnull⟩
    have hnil : related store relation x = [] :=
      List.eq_nil_iff_forall_not_mem.2 fun y hy => hnone y (mem_related_iff.1 hy)
    rw [hnil]
    exact (List.filter_eq_nil_iff.2 fun y _ => by simpa using hnone y).symm

theorem embedsRelated_embedded (store : Store) (relation : Relation) (x : Row) :
    EmbedsRelated store relation x (embedded relation.kind (related store relation x)) := by
  cases hkind : relation.kind with
  | hasMany => exact .all hkind (kept_related store relation x)
  | belongsTo =>
    cases hrelated : related store relation x with
    | nil =>
      refine .nothing hkind fun y hy => ?_
      have hmem := mem_related_iff.2 hy
      rw [hrelated] at hmem
      cases hmem
    | cons first rest => exact .first hkind (first_related hrelated)

/-! ## Names apart from keys -/

/-- A row that still has the fields that the relations look at gets under each name what its relation
embeds in the row as it was first. -/
theorem get?_embed_of_keysApart {relations : List (String × Relation)} {x y : Row}
    (hdeclared : ∀ entry ∈ relations, store.relation? table entry.1 = some entry.2)
    (hapart : ∀ entry ∈ relations, (Relation.fields entry.2).1 ∉ relations.map Prod.fst)
    (hkeys : ∀ entry ∈ relations,
      y.get? (Relation.fields entry.2).1 = x.get? (Relation.fields entry.2).1)
    {name : String} (hmem : (name, relation) ∈ relations) :
    (embed store relations y).get? name =
      some (embedded relation.kind (related store relation x)) := by
  induction relations generalizing y with
  | nil => cases hmem
  | cons entry rest ih =>
    obtain ⟨first, found⟩ := entry
    rw [embed_cons]
    by_cases hrest : name ∈ rest.map Prod.fst
    · -- Of one name there is one relation, so the pair itself comes again later.
      obtain ⟨⟨_, relation'⟩, hlater, rfl⟩ := List.mem_map.1 hrest
      have hsame : relation' = relation := Option.some.inj <|
        (hdeclared _ (List.mem_cons_of_mem _ hlater)).symm.trans (hdeclared _ hmem)
      refine ih (fun entry hentry => hdeclared entry (List.mem_cons_of_mem _ hentry))
        (fun entry hentry hkey => hapart entry (List.mem_cons_of_mem _ hentry)
          (List.mem_cons_of_mem _ hkey)) (fun entry hentry => ?_) (hsame ▸ hlater)
      have hne : first ≠ (Relation.fields entry.2).1 := fun heq =>
        hapart entry (List.mem_cons_of_mem _ hentry) (heq ▸ List.mem_cons_self ..)
      rw [Fields.get?_insert_of_ne _ _ hne, hkeys entry (List.mem_cons_of_mem _ hentry)]
    · have hhead : (name, relation) = (first, found) :=
        (List.mem_cons.1 hmem).resolve_right fun hlater =>
          hrest (List.mem_map_of_mem (f := Prod.fst) hlater)
      cases hhead
      rw [get?_embed_of_notMem hrest, Fields.get?_insert_self,
        related_congr (hkeys _ (List.mem_cons_self ..))]

/-- Relations that have been found for names. -/
structure Found (store : Store) (table : String) (names : List String)
    (relations : List (String × Relation)) : Prop where
  resolved : resolve store table names = .ok relations
  names : relations.map Prod.fst = names

namespace Found

variable {relations relations' : List (String × Relation)}

theorem declared (h : Found store table names relations) :
    ∀ entry ∈ relations, store.relation? table entry.1 = some entry.2 :=
  relation?_of_resolve h.resolved

theorem mem (h : Found store table names relations) {name : String} (hname : name ∈ names)
    (hrelation : store.relation? table name = some relation) : (name, relation) ∈ relations := by
  rw [← h.names] at hname
  obtain ⟨⟨_, found⟩, hmem, rfl⟩ := List.mem_map.1 hname
  obtain rfl := Option.some.inj ((h.declared _ hmem).symm.trans hrelation)
  exact hmem

theorem get?_embed (h : Found store table names relations) (hapart : KeysApart store table names)
    {name : String} (hname : name ∈ names)
    (hrelation : store.relation? table name = some relation) (x : Row) :
    (embed store relations x).get? name =
      some (embedded relation.kind (related store relation x)) := by
  refine get?_embed_of_keysApart h.declared (fun entry hentry => ?_) (fun _ _ => rfl)
    (h.mem hname hrelation)
  rw [h.names]
  exact hapart entry.1 (h.names ▸ List.mem_map_of_mem hentry) entry.2 (h.declared entry hentry)

/-- Names in another order embed the same. -/
theorem embed_eq (h : Found store table names relations) (h' : Found store table names' relations')
    (hapart : KeysApart store table names) (hmembers : ∀ name, name ∈ names' ↔ name ∈ names)
    {x : Row} (hsorted : Fields.Sorted x) :
    embed store relations' x = embed store relations x := by
  have hapart' : KeysApart store table names' := fun name hname relation hrelation hkey =>
    hapart name ((hmembers name).1 hname) relation hrelation ((hmembers _).1 hkey)
  refine Fields.Sorted.ext (sorted_embed relations' hsorted) (sorted_embed relations hsorted)
    fun field => ?_
  by_cases hfield : field ∈ names
  · obtain ⟨⟨_, relation⟩, hmem, rfl⟩ := List.mem_map.1 (h.names ▸ hfield)
    have hrelation := h.declared _ hmem
    rw [h.get?_embed hapart hfield hrelation, h'.get?_embed hapart' ((hmembers _).2 hfield) hrelation]
  · have hfield' : field ∉ names' := fun hmem => hfield ((hmembers field).1 hmem)
    rw [get?_embed_of_notMem (h'.names ▸ hfield'), get?_embed_of_notMem (h.names ▸ hfield)]

theorem cons (h : Found store table names relations) {name : String}
    (hrelation : store.relation? table name = some relation) :
    Found store table (name :: names) ((name, relation) :: relations) where
  resolved := by
    rw [resolve_cons hrelation, h.resolved]
    rfl
  names := congrArg (name :: ·) h.names

end Found

theorem exists_found (h : ∀ name ∈ names, store.relation? table name ≠ none) :
    ∃ relations, Found store table names relations := by
  obtain ⟨relations, hresolve, hnames⟩ := exists_resolve_eq_ok h
  exact ⟨relations, hresolve, hnames⟩

/-! ## Calls -/

def embedding (names : List String) : Action :=
  ⟨.eagerLoad, [("relations", .array (names.map .string))]⟩

theorem readRelations_embedding (names : List String) :
    readRelations (embedding names).options = names := by
  show (names.map Json.string).filterMap Json.string? = names
  rw [List.filterMap_map]
  exact List.filterMap_some

variable {opened : String} {earlier : List Call} {relations relations' : List (String × Relation)}

theorem answer_embedding (opened : String) (earlier : List Call)
    (h : Found store (store.selected opened earlier).tableName names relations) :
    ∃ answer, (store.session opened).answer earlier (.act (embedding names)) = .ok answer ∧
      answer.rows = ((store.selected opened earlier).rows store).map (embed store relations) := by
  have hresolve : resolve store (store.selected opened earlier).tableName
      (readRelations (embedding names).options) = .ok relations := by
    rw [readRelations_embedding, h.resolved]
  obtain ⟨next, hnext, -, -, hrows⟩ := exists_eagerLoad_eq_ok hresolve
  refine ⟨next.answer store, ?_, by rw [rows_answer, hrows]⟩
  have hanswer := answer_eagerLoad store opened earlier (embedding names).options
  rw [hnext] at hanswer
  exact hanswer

/-- Relations that embed the same in all rows that are selected are answered alike. -/
theorem answer_embedding_congr
    (h : Found store (store.selected opened earlier).tableName names relations)
    (h' : Found store (store.selected opened earlier).tableName names' relations')
    (hembed : ∀ row ∈ (store.selected opened earlier).rows store,
      embed store relations' row = embed store relations row) :
    (store.session opened).answer earlier (.act (embedding names')) =
      (store.session opened).answer earlier (.act (embedding names)) := by
  have hsame : eagerLoad store (embedding names').options (store.selected opened earlier) =
      eagerLoad store (embedding names).options (store.selected opened earlier) := by
    unfold eagerLoad
    rw [readRelations_embedding, readRelations_embedding, h.resolved, h'.resolved]
    generalize store.selected opened earlier = selection at hembed
    cases selection with
    | one table row => exact congrArg (Except.ok ∘ Selection.one table) (hembed row (.head _))
    | whole table | many table rows =>
      exact congrArg (Except.ok ∘ Selection.many table) (List.map_congr_left hembed)
  have hfirst := answer_eagerLoad store opened earlier (embedding names').options
  have hsecond := answer_eagerLoad store opened earlier (embedding names).options
  rw [hsame] at hfirst
  exact hfirst.trans hsecond.symm

/-- Wherever a session stands on the table, the names can be listed in any order, and repeated. -/
def OrderFree (store : Store) (table : String) (names : List String) : Prop :=
  ∀ opened earlier names', (store.selected opened earlier).tableName = table →
    (∀ name, name ∈ names' ↔ name ∈ names) →
    (store.session opened).answer earlier (.act (embedding names')) =
      (store.session opened).answer earlier (.act (embedding names))

/-- Wherever a session stands on the table, what is embedded under the names is related to the row as it
was fetched. -/
def EmbedsAsFetched (store : Store) (table : String) (names : List String) : Prop :=
  ∀ opened earlier, (store.selected opened earlier).tableName = table →
    ∃ answer, (store.session opened).answer earlier (.act (embedding names)) = .ok answer ∧
      List.Forall₂ (fun x y => ∀ name ∈ names, ∃ relation value,
          store.relation? table name = some relation ∧ y.get? name = some value ∧
            EmbedsRelated store relation x value)
        ((store.selected opened earlier).rows store) answer.rows

theorem orderFree_of_keysApart (hstore : store.Ordered)
    (hdeclared : ∀ name ∈ names, store.relation? table name ≠ none)
    (hapart : KeysApart store table names) : store.OrderFree table names := by
  rintro opened earlier names' rfl hmembers
  obtain ⟨relations, hfound⟩ := exists_found hdeclared
  obtain ⟨relations', hfound'⟩ : ∃ relations', Found store _ names' relations' :=
    exists_found fun name hname => hdeclared name ((hmembers name).1 hname)
  refine answer_embedding_congr hfound hfound' fun row hrow => ?_
  exact hfound.embed_eq hfound' hapart hmembers (hstore.sortedRows_selected opened earlier row hrow)

theorem embedsAsFetched_of_keysApart
    (hdeclared : ∀ name ∈ names, store.relation? table name ≠ none)
    (hapart : KeysApart store table names) : store.EmbedsAsFetched table names := by
  rintro opened earlier rfl
  obtain ⟨relations, hfound⟩ := exists_found hdeclared
  obtain ⟨answer, hanswer, hrows⟩ := answer_embedding opened earlier hfound
  refine ⟨answer, hanswer, ?_⟩
  rw [hrows, List.forall₂_map_right_iff, List.forall₂_same]
  intro row _ name hname
  obtain ⟨relation, hrelation⟩ := Option.ne_none_iff_exists'.1 (hdeclared name hname)
  exact ⟨relation, _, hrelation, hfound.get?_embed hapart hname hrelation row,
    embedsRelated_embedded store relation row⟩

/-! ## Names that meet keys -/

/-- What stands for related rows is never equal to a string. -/
theorem looselyEqual_embedded (s : String) (kind : Relation.Kind) (rows : List Row) :
    looselyEqual (.string s) (embedded kind rows) = false := by
  cases kind with
  | hasMany => rfl
  | belongsTo => cases rows <;> rfl

theorem embedded_nil_ne (kind : Relation.Kind) (row : Row) : embedded kind [] ≠ embedded kind [row] := by
  cases kind <;> nofun

section Colliding

/-- A value that rows refer to each other by. -/
def token : Json := .string "key"

/-- A row that a relation connects with itself. -/
def loop (relation : Relation) : Row :=
  Fields.insert [((Relation.fields relation).1, token)] (Relation.fields relation).2 token

/-- The relations of a store with that row in a table and in the other table of the relation. -/
def looped (store : Store) (table : String) (relation : Relation) : Store where
  tables := Fields.insert [(table, [loop relation])] relation.table [loop relation]
  relations := store.relations

variable (relation : Relation)

theorem get?_loop {field : String}
    (h : field = (Relation.fields relation).1 ∨ field = (Relation.fields relation).2) :
    (loop relation).get? field = some token := by
  rw [loop, Fields.get?_insert, Fields.get?_cons]
  rcases h with rfl | rfl <;> simp

theorem rows_looped {other : String} (h : other = table ∨ other = relation.table) :
    (looped store table relation).rows other = [loop relation] := by
  rw [rows, looped, Fields.get?_insert, Fields.get?_cons]
  rcases h with rfl | rfl <;> simp

theorem ordered_looped (h : store.Ordered) (table : String) : (looped store table relation).Ordered where
  tables := by
    have hone : Fields.Sorted [(table, [loop relation])] := List.pairwise_singleton ..
    exact hone.insert relation.table [loop relation]
  rows := by
    have hloop : CanonicalRows [loop relation] := by
      have htoken : token.Canonical := Json.canonical_of_leaf rfl rfl
      refine List.forall_mem_singleton.2
        (Json.canonical_object (Fields.Sorted.insert (List.pairwise_singleton ..) _ _) ?_)
      refine Fields.forall_mem_insert (fun entry hentry => ?_) htoken
      rw [List.mem_singleton.1 hentry]
      exact htoken
    refine Fields.forall_mem_insert (fun entry hentry => ?_) hloop
    rw [List.mem_singleton.1 hentry]
    exact hloop
  relations := h.relations
  named := h.named

/-- The row is related to itself. -/
theorem related_loop : related (looped store table relation) relation (loop relation) =
    [loop relation] := by
  have hkey := get?_loop relation (.inl rfl)
  have hfound : hasKey (loop relation) (Relation.fields relation).2 token :=
    hasKey_iff.2 ⟨token, get?_loop relation (.inr rfl), rfl⟩
  rw [related_of_key hkey nofun, rows_looped relation (.inr rfl)]
  refine List.filter_eq_self.2 fun row hrow => ?_
  rw [List.mem_singleton.1 hrow]
  exact hfound

/-- Once something is embedded under its key, it is related to no row. -/
theorem related_overwritten (kind : Relation.Kind) (rows : List Row) :
    related (looped store table relation) relation
      ((loop relation).insert (Relation.fields relation).1 (embedded kind rows)) = [] := by
  refine List.eq_nil_iff_forall_not_mem.2 fun y hy => ?_
  obtain ⟨hmem, key, hkey, -, found, hfound, hequal⟩ := mem_related_iff.1 hy
  rw [rows_looped relation (.inr rfl)] at hmem
  obtain rfl := List.mem_singleton.1 hmem
  rw [Fields.get?_insert_self] at hkey
  rw [get?_loop relation (.inr rfl)] at hfound
  cases hkey
  cases hfound
  rw [token, looselyEqual_embedded] at hequal
  cases hequal

/-- The row comes out differently if its key is embedded first. -/
theorem embed_loop_ne {name : String} {others : List (String × Relation)}
    (h : name ∉ others.map Prod.fst) (keyRelation : Relation) :
    embed (looped store table relation) ((name, relation) :: others) (loop relation) ≠
      embed (looped store table relation)
        (((Relation.fields relation).1, keyRelation) :: (name, relation) :: others)
        (loop relation) := by
  intro heq
  have hvalue := congrArg (Fields.get? · name) heq
  simp only [embed_cons, get?_embed_of_notMem h, Fields.get?_insert_self, related_loop,
    related_overwritten] at hvalue
  exact embedded_nil_ne relation.kind (loop relation) (Option.some.inj hvalue).symm

end Colliding

/-- If a relation looks at a field that has one of the names, there are rows for which it matters
whether this name comes first. -/
theorem exists_not_orderFree (hstore : store.Ordered)
    (hdeclared : ∀ name ∈ names, store.relation? table name ≠ none)
    (h : ¬ KeysApart store table names) :
    ∃ filled : Store, filled.Ordered ∧ filled.relations = store.relations ∧
      ¬ filled.OrderFree table names := by
  obtain ⟨name, hname, relation, hrelation, hkey⟩ : ∃ name ∈ names, ∃ relation,
      store.relation? table name = some relation ∧ (Relation.fields relation).1 ∈ names := by
    simpa [KeysApart] using h
  obtain ⟨keyRelation, hkeyRelation⟩ := Option.ne_none_iff_exists'.1 (hdeclared _ hkey)
  refine ⟨looped store table relation, ordered_looped relation hstore table, rfl, fun hfree => ?_⟩
  -- The name stands first, or after its key; the other names follow and do not set it again.
  let rest := names.filter (· ≠ name)
  obtain ⟨others, hothers⟩ : ∃ others, Found (looped store table relation) table rest others :=
    exists_found fun other hother => hdeclared other (List.mem_filter.1 hother).1
  have hrest : name ∉ others.map Prod.fst := by
    rw [hothers.names]
    intro hmem
    simpa using (List.mem_filter.1 hmem).2
  have hmembers : ∀ other, other ∈ name :: rest ↔ other ∈ names := by
    intro other
    by_cases hother : other = name
    · simp [hother, hname]
    · simp [rest, hother]
  have hmembers' : ∀ other, other ∈ (Relation.fields relation).1 :: name :: rest ↔ other ∈ names := by
    intro other
    rw [List.mem_cons, hmembers]
    exact ⟨fun h => h.elim (fun heq => heq ▸ hkey) id, .inr⟩
  have halone := hothers.cons hrelation
  obtain ⟨answer, hanswer, hrows⟩ := answer_embedding table [] halone
  obtain ⟨answer', hanswer', hrows'⟩ :=
    answer_embedding table [] (halone.cons hkeyRelation)
  have hsame := (hfree table [] _ rfl hmembers').trans (hfree table [] _ rfl hmembers).symm
  obtain rfl := Except.ok.inj (hanswer'.symm.trans (hsame.trans hanswer))
  have hstanding : ((looped store table relation).selected table []).rows
      (looped store table relation) = [loop relation] := rows_looped relation (.inl rfl)
  rw [hrows, hstanding] at hrows'
  exact embed_loop_ne relation hrest keyRelation (List.cons.inj hrows').1

/-! ## Main statement -/

theorem keysApart_congr {filled : Store} (h : filled.relations = store.relations) :
    KeysApart filled table names ↔ KeysApart store table names := by
  unfold KeysApart relation?
  rw [h]

/-- Relations of a table can be embedded in any order, and repeatedly, exactly if none of them looks at
a field that has one of the listed names: then all answers are the same, and what is embedded is related
to the rows as they were fetched. If one of them does look at such a field, there are rows, under the
same relations, for which the order or a repetition can be noticed. -/
theorem orderFree_iff_keysApart (hstore : store.Ordered)
    (hdeclared : ∀ name ∈ names, store.relation? table name ≠ none) :
    ((∀ filled : Store, filled.Ordered → filled.relations = store.relations →
      filled.OrderFree table names) ↔ KeysApart store table names) ∧
    (KeysApart store table names → store.EmbedsAsFetched table names) := by
  refine ⟨⟨fun hfree => ?_, fun hapart filled hfilled hrelations => ?_⟩,
    embedsAsFetched_of_keysApart hdeclared⟩
  · by_contra hapart
    obtain ⟨filled, hfilled, hrelations, hnot⟩ := exists_not_orderFree hstore hdeclared hapart
    exact hnot (hfree filled hfilled hrelations)
  · refine orderFree_of_keysApart hfilled (fun name hname => ?_) ((keysApart_congr hrelations).2 hapart)
    unfold relation?
    rw [hrelations]
    exact hdeclared name hname

/-- Articles whose author stands in a field that has the name of one relation, and that another one
looks at. -/
def press : Store :=
  ((((empty.withTable "articles"
        [.object [("author", .number (.integer 5)), ("id", .number (.integer 50))]]).withTable "people"
        [.object [("id", .number (.integer 5)), ("name", .string "Ann")]]).withTable "profiles"
        [.object [("bio", .string "Writes."), ("id", .number (.integer 5))]]).relate "articles" "author"
        ⟨"people", "author", .belongsTo⟩).relate "articles" "profile"
        ⟨"profiles", "author", .belongsTo⟩

theorem ordered_press : press.Ordered := by
  refine .relate (.relate (.withTable (.withTable (.withTable .empty "articles" ?_) "people" ?_)
    "profiles" ?_) _ _ _) _ _ _
  all_goals
    refine List.forall_mem_singleton.2 (Json.canonical_object_of_leaves
      (List.pairwise_pair.2 (by decide)) ?_)
    simp [Json.array?, Json.object?]

theorem press_not_orderFree :
    press.Ordered ∧ (∀ name ∈ ["author", "profile"], press.relation? "articles" name ≠ none) ∧
    ¬ ∀ filled : Store, filled.Ordered → filled.relations = press.relations →
      filled.OrderFree "articles" ["author", "profile"] := by
  have hdeclared : ∀ name ∈ ["author", "profile"], press.relation? "articles" name ≠ none := by
    intro name hname
    rcases List.mem_pair.1 hname with rfl | rfl <;> nofun
  refine ⟨ordered_press, hdeclared, fun hfree => ?_⟩
  have hapart := (orderFree_iff_keysApart ordered_press hdeclared).1.1 hfree
  exact hapart "profile" (by decide) ⟨"profiles", "author", .belongsTo⟩ rfl (by decide)

/-- With the author embedded first, the article has no profile. -/
example : (press.session "articles").answer [] (.act (embedding ["author", "profile"])) =
    .ok (.many [[("author", .object [("id", .number (.integer 5)), ("name", .string "Ann")]),
      ("id", .number (.integer 50)), ("profile", .null)]]) := by
  rfl

end NamedQuery.Store
