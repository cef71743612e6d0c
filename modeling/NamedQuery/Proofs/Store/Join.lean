import NamedQuery.Proofs.Store.Window

/-! # Joins and embedding

Two ways to follow a relation from the rows of a table. A join selects the rows that have a partner
which meets conditions (`join_of_wellFormed`), and embedding adds the partners to a row. Without
conditions on them both agree on whether a row has partners (`hasPartner_iff_embeds`). -/

namespace NamedQuery.Store

variable {store : Store} {relation : Relation} {options : Options} {name : String}

/-- A relation connects a row with one that meets conditions. -/
def HasPartner (store : Store) (relation : Relation) (conditions : Fields Json) (x : Row) : Prop :=
  ∃ y, Related store relation x y ∧ MeetsAll conditions y

theorem hasRelated_iff_hasPartner {conditions : Fields Json} {x : Row} :
    hasRelated store relation conditions x ↔ HasPartner store relation conditions x := by
  rw [hasRelated, List.any_eq_true]
  constructor
  · rintro ⟨y, hy, hmeets⟩
    exact ⟨y, mem_related_iff.1 hy, satisfiesAll_iff_meetsAll.1 hmeets⟩
  · rintro ⟨y, hy, hmeets⟩
    exact ⟨y, mem_related_iff.2 hy, satisfiesAll_iff_meetsAll.2 hmeets⟩

/-! ## Joins -/

/-- The options of a call for a join name a relation, conditions, and conditions on partners. -/
structure JoinAsks (name : String) (conditions withConditions : Fields Json) (options : Options) :
    Prop where
  relation : options.get? "with" = some (.string name)
  conditions : ConditionsIn (options.get? "conditions") conditions
  withConditions : ConditionsIn (options.get? "with_conditions") withConditions

theorem keepJoined_eq {conditions : Fields Json}
    (h : ConditionsIn (options.get? "with_conditions") conditions) (rows : List Row) :
    keepJoined store relation options rows =
      .ok (rows.filter (hasRelated store relation conditions)) := by
  unfold keepJoined
  rw [readConditions_of_conditionsIn h]
  cases rows <;> rfl

/-- The rows that a join keeps, of whichever rows it starts from. -/
theorem kept_join (conditions withConditions : Fields Json) (rows : List Row) :
    Kept (fun x => MeetsAll conditions x ∧ HasPartner store relation withConditions x) rows
      ((rows.filter (satisfiesAll conditions)).filter (hasRelated store relation withConditions)) := by
  rw [List.filter_filter]
  refine kept_filter (fun x => ?_) rows
  rw [Bool.and_eq_true, hasRelated_iff_hasPartner, satisfiesAll_iff_meetsAll]
  exact And.comm

variable {conditions withConditions : Fields Json}

/-- The rows that a join keeps are shown in its window. -/
theorem join_eq (selection : Selection) (hasks : JoinAsks name conditions withConditions options)
    (hrelation : store.relation? selection.tableName name = some relation) :
    join store options selection =
      (readWindow options).map fun window => .many selection.tableName
        (window.apply (((selection.rows store).filter (satisfiesAll conditions)).filter
          (hasRelated store relation withConditions))) := by
  unfold join
  simp only [hasks.relation, hrelation, readConditions_of_conditionsIn hasks.conditions]
  show (keepJoined store relation options _).bind _ = _
  rw [keepJoined_eq hasks.withConditions]
  rfl

theorem join_of_wellFormed (selection : Selection)
    (hasks : JoinAsks name conditions withConditions options)
    (hrelation : store.relation? selection.tableName name = some relation)
    (hwindow : WellFormedWindow options.get?) :
    ∃ kept shown,
      Kept (fun x => MeetsAll conditions x ∧ HasPartner store relation withConditions x)
        (selection.rows store) kept ∧
      Shows options.get? kept shown ∧
      join store options selection = .ok (.many selection.tableName shown) := by
  obtain ⟨window, hread, hshows⟩ := readWindow_of_wellFormed hwindow
  refine ⟨_, _, kept_join conditions withConditions (selection.rows store), hshows _, ?_⟩
  rw [join_eq selection hasks hrelation, hread]
  rfl

theorem join_of_malformed (selection : Selection)
    (hasks : JoinAsks name conditions withConditions options)
    (hrelation : store.relation? selection.tableName name = some relation)
    (hwindow : ¬ WellFormedWindow options.get?) :
    ∃ problem, join store options selection = .error problem ∧ problem.kind = .backend := by
  obtain ⟨problem, hread, hbackend⟩ := readWindow_of_malformed hwindow
  refine ⟨problem, ?_, hbackend⟩
  rw [join_eq selection hasks hrelation, hread]
  rfl

theorem join_of_undeclared (selection : Selection)
    (hasks : JoinAsks name conditions withConditions options)
    (hrelation : store.relation? selection.tableName name = none) :
    join store options selection = .error (.cannotJoin selection.tableName name) := by
  unfold join
  simp only [hasks.relation, hrelation]

/-! ## Embedding -/

/-- A value that embeds rows: a list that is not empty, or one row. -/
inductive EmbedsRows : Relation.Kind → Json → Prop where
  | list {items : List Json} : items ≠ [] → EmbedsRows .hasMany (.array items)
  | row {row : Row} : EmbedsRows .belongsTo (.object row)

theorem embedsRows_embedded_iff {kind : Relation.Kind} {rows : List Row} :
    EmbedsRows kind (embedded kind rows) ↔ rows ≠ [] := by
  cases kind with
  | hasMany =>
    constructor
    · rintro h rfl
      cases h with
      | list hitems => exact hitems rfl
    · intro h
      exact .list fun hitems => h (List.map_eq_nil_iff.1 hitems)
  | belongsTo =>
    cases rows with
    | nil => exact ⟨nofun, fun h => absurd rfl h⟩
    | cons row rest => exact ⟨fun _ => List.cons_ne_nil _ _, fun _ => .row⟩

/-- Embedding one relation in one row sets one field. -/
theorem eagerLoad_one {table : String} (hrelation : store.relation? table name = some relation)
    (x : Row) :
    eagerLoad store [("relations", .array [.string name])] (.one table x) =
      .ok (.one table (x.insert name (embedded relation.kind (related store relation x)))) := by
  have hresolve : resolve store table [name] = .ok [(name, relation)] := by
    rw [resolve, hrelation]
    rfl
  show (resolve store table [name]).bind _ = _
  rw [hresolve]
  rfl

/-- A relation is embedded in a row as something that is there. -/
def Embeds (store : Store) (table name : String) (kind : Relation.Kind) (x : Row) : Prop :=
  ∃ row value, eagerLoad store [("relations", .array [.string name])] (.one table x) =
      .ok (.one table row) ∧
    row.get? name = some value ∧ EmbedsRows kind value

/-- A row has partners if and only if embedding them gives something. -/
theorem hasPartner_iff_embeds {table : String}
    (hrelation : store.relation? table name = some relation) {x : Row} :
    HasPartner store relation [] x ↔ Embeds store table name relation.kind x := by
  unfold Embeds
  rw [eagerLoad_one hrelation]
  constructor
  · rintro ⟨y, hy, _⟩
    refine ⟨_, _, rfl, Fields.get?_insert_self .., embedsRows_embedded_iff.2 fun hnil => ?_⟩
    have hmem := mem_related_iff.2 hy
    rw [hnil] at hmem
    cases hmem
  · rintro ⟨row, value, hrow, hvalue, hembeds⟩
    cases hrow
    rw [Fields.get?_insert_self] at hvalue
    cases hvalue
    obtain ⟨y, hy⟩ := List.exists_mem_of_ne_nil _ (embedsRows_embedded_iff.1 hembeds)
    exact ⟨y, mem_related_iff.1 hy, nofun⟩

end NamedQuery.Store
