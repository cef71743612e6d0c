import NamedQuery.Proofs.Identifier.Grammar
import NamedQuery.Proofs.Inflection.Spelling

/-! # Which entity a query stands on

Every query asks its adapter for the table of one entity (`AsksFor`): a lookup and a join for what
they return, in the singular and then in snake_case, and a walk for its anchor, in snake_case and then
in the singular. This comes to the same name (`queries_ask_alike`). -/

namespace NamedQuery

open Identifier (Spells VerbToken VerbAt join)
open Inflection (CamelWord underscore singularize)

/-- The table of the plan that a text has, if it has one. -/
def tableOf (settings : Settings) (text : String) : Except Fault (Option String) :=
  (Engine.plan? settings text).map (·.map Plan.table)

/-- A text is a query for the table of an entity: whatever the adapter in use answers for this
entity is what becomes of the query, be it a table to stand on or a fault. -/
def AsksFor (text entity : String) : Prop :=
  ∀ settings, tableOf settings text =
    settings.adapter.bind fun adapter => (Plan.tableFor adapter entity).map some

/-! ## Reading -/

namespace Identifier

/-- No verb token begins at any of the words. -/
def VerbFree (words : List String) : Prop := ∀ position, ¬ VerbAt words position

theorem VerbFree.count_by {words : List String} (h : VerbFree words) : words.count "By" = 0 := by
  refine List.count_eq_zero.2 fun hmem => ?_
  obtain ⟨front, rest, rfl⟩ := List.append_of_mem hmem
  exact h front.length ⟨_, _, rest, .byField, List.drop_left ..⟩

theorem VerbFree.of_notMem {words : List String} (hby : "By" ∉ words) (hfrom : "From" ∉ words)
    (hjoined : "Joined" ∉ words) : VerbFree words := by
  rintro position ⟨verb, token, after, htoken, hwords⟩
  have hmem : ∀ word ∈ token, word ∈ words := fun word hword =>
    List.mem_of_mem_drop (hwords ▸ List.mem_append_left after hword)
  cases htoken with
  | byField => exact hby (hmem _ (by simp))
  | fromAnchor => exact hfrom (hmem _ (by simp))
  | joinedWith => exact hjoined (hmem _ (by simp))

theorem Spells.trimmed {words : List String} {text : String} (h : Spells words text) :
    Text.trimmed text = text := by
  have hblank : ∀ c ∈ text.toList, Text.isBlank c = false := by
    intro c hc
    rw [h.text_eq, toList_join, List.mem_flatMap] at hc
    obtain ⟨word, hword, hc⟩ := hc
    have hall : ∀ n < 0x80, (Char.ofNat n).isUpper ∨ continues (Char.ofNat n) →
        Text.isBlank (Char.ofNat n) = false := by decide
    have hisWord := h.isWord word hword
    exact Inflection.forall_ascii
      (p := fun c => c.isUpper ∨ continues c → Text.isBlank c = false) hall
      (Inflection.ascii_of_isWord hisWord c hc) (Inflection.letter_of_isWord hisWord hc)
  refine (Text.Trims.eq_trimmed ⟨⟨fun c hc => ?_, fun c hc => ?_⟩, [], [], by simp, nofun, nofun⟩).symm
  · exact hblank c (List.mem_of_head? hc)
  · exact hblank c (List.mem_of_getLast? hc)

/-- An entity without verb tokens is found again in a query, with the verb and the key. -/
theorem read_query {s : String} {verb : Verb} {entity token key : List String}
    (hspells : Spells (entity ++ token ++ key) (Text.trimmed s)) (hentity : VerbFree entity)
    (hne : entity ≠ []) (htoken : VerbToken verb token)
    (hby : (token ++ key).count "By" ≤ 1) :
    read s = .query ⟨Text.trimmed s, join entity, verb, keyOf (join key)⟩ := by
  have hcount : (entity ++ token ++ key).count "By" ≤ 1 := by
    rwa [List.append_assoc, List.count_append, hentity.count_by, Nat.zero_add]
  refine read_of_grammar (.verb hspells hcount hne htoken fun position _ hposition hat => ?_)
  exact hentity position (verbAt_of_append htoken hposition hat)

/-- A query whose verb needs a key, with the key it has. -/
theorem read_query_with_key {s : String} {verb : Verb} {entity token key : List String}
    (hspells : Spells (entity ++ token ++ key) (Text.trimmed s)) (hentity : VerbFree entity)
    (hne : entity ≠ []) (htoken : VerbToken verb token)
    (hby : (token ++ key).count "By" ≤ 1) (hkey : key ≠ []) :
    read s = .query ⟨Text.trimmed s, join entity, verb, some (underscore (join key))⟩ := by
  have hwords : ∀ word ∈ key, isWord word.toList :=
    fun word hword => hspells.isWord word (by simp [hword])
  rw [read_query hspells hentity hne htoken hby, keyOf_join hwords,
    List.isEmpty_eq_false_iff.2 hkey, if_neg Bool.false_ne_true]

end Identifier

/-! ## Plans -/

/-- An intent has the same plan on every table that the adapter can have for an entity, and no plan
only if the adapter has none. -/
def StandsOn (intent : Intent) (entity : String) (isCollection : Bool) : Prop :=
  ∃ plan : Plan, plan.isCollection = isCollection ∧ ∀ adapter,
    Plan.ofIntent intent adapter =
      (Plan.tableFor adapter entity).map fun table => { plan with table := table }

section StandsOn

variable (identifier entity : String)

theorem standsOn_lookup (key : Option String) : StandsOn ⟨identifier, entity, .byField, key⟩
    (underscore (singularize entity)) (Inflection.isPlural entity) := by
  let target := underscore (singularize entity)
  refine ⟨⟨identifier, .byField, .lookup key false, Inflection.isPlural entity, target, ""⟩, rfl, ?_⟩
  intro adapter
  show (Plan.tableFor adapter target >>= _) = _
  cases Plan.tableFor adapter target <;> rfl

theorem standsOn_all : StandsOn ⟨identifier, entity, .all, none⟩
    (underscore (singularize entity)) (Inflection.isPlural entity) := by
  let target := underscore (singularize entity)
  refine ⟨⟨identifier, .all, .lookup none true, Inflection.isPlural entity, target, ""⟩, rfl, ?_⟩
  intro adapter
  show (Plan.tableFor adapter target >>= _) = _
  cases Plan.tableFor adapter target <;> rfl

theorem standsOn_join (key : String) : StandsOn ⟨identifier, entity, .joinedWith, some key⟩
    (underscore (singularize entity)) true := by
  let base := underscore entity
  refine ⟨⟨identifier, .joinedWith, .join base key, true, base, ""⟩, rfl, ?_⟩
  intro adapter
  show (Plan.tableFor adapter _ >>= _) = _
  cases Plan.tableFor adapter (underscore (singularize entity)) <;> rfl

theorem standsOn_walk (key : String) : StandsOn ⟨identifier, entity, .fromAnchor, some key⟩
    (singularize key) (Inflection.isPlural entity) := by
  let result := underscore entity
  refine ⟨⟨identifier, .fromAnchor, .walk (singularize key) result, Inflection.isPlural entity, result,
    ""⟩, rfl, ?_⟩
  intro adapter
  show (Plan.tableFor adapter _ >>= _) = _
  cases Plan.tableFor adapter (singularize key) <;> rfl

end StandsOn

namespace StandsOn

variable {intent : Intent} {entity text : String} {isCollection : Bool}
  (h : StandsOn intent entity isCollection) (hread : Identifier.read text = .query intent)
include h hread

theorem plan?_eq {settings : Settings} {adapter : Adapter} (hadapter : settings.adapter = .ok adapter)
    {table : String} (htable : Plan.tableFor adapter entity = .ok table) :
    ∃ plan, Engine.plan? settings text = .ok (some plan) ∧ plan.table = table ∧
      plan.isCollection = isCollection := by
  obtain ⟨plan, hcollection, hplan⟩ := h
  refine ⟨{ plan with table := table }, ?_, rfl, hcollection⟩
  simp only [Engine.plan?, hread, hadapter]
  show (Plan.ofIntent intent adapter >>= _) = _
  rw [hplan, htable]
  rfl

/-- A query asks for the entity that its plan stands on. -/
theorem asksFor : AsksFor text entity := by
  obtain ⟨plan, _, hplan⟩ := h
  intro settings
  simp only [tableOf, Engine.plan?, hread]
  cases settings.adapter with
  | error fault => rfl
  | ok adapter =>
    show (Plan.ofIntent intent adapter >>= _).map _ = (Plan.tableFor adapter entity).map some
    rw [hplan]
    cases Plan.tableFor adapter entity <;> rfl

end StandsOn

/-! ## Queries -/

variable {text : String} {entity field association result : List String}

theorem asksFor_lookup (hspells : Spells (entity ++ ["By"] ++ field) (Text.trimmed text))
    (hentity : Identifier.VerbFree entity) (hne : entity ≠ []) (hby : field.count "By" = 0) :
    AsksFor text (underscore (singularize (join entity))) :=
  (standsOn_lookup ..).asksFor (Identifier.read_query hspells hentity hne .byField (by simp [hby]))

theorem asksFor_join
    (hspells : Spells (entity ++ ["Joined", "With"] ++ association) (Text.trimmed text))
    (hentity : Identifier.VerbFree entity) (hne : entity ≠ []) (hassociation : association ≠ [])
    (hby : association.count "By" ≤ 1) :
    AsksFor text (underscore (singularize (join entity))) :=
  (standsOn_join ..).asksFor
    (Identifier.read_query_with_key hspells hentity hne .joinedWith (by simp [hby]) hassociation)

theorem asksFor_walk (hspells : Spells (result ++ ["From"] ++ entity) (Text.trimmed text))
    (hresult : Identifier.VerbFree result) (hresultNe : result ≠ []) (hne : entity ≠ [])
    (hby : entity.count "By" ≤ 1) :
    AsksFor text (singularize (underscore (join entity))) :=
  (standsOn_walk ..).asksFor
    (Identifier.read_query_with_key hspells hresult hresultNe .fromAnchor (by simp [hby]) hne)

/-! ## Main statement -/

theorem underscore_singularize_join {name : List String} (hne : name ≠ [])
    (hcamel : ∀ word ∈ name, CamelWord word.toList) :
    underscore (singularize (join name)) = singularize (underscore (join name)) := by
  rcases name.eq_nil_or_concat with rfl | ⟨front, last, rfl⟩
  · exact absurd rfl hne
  · have hchars : join (front.concat last) =
        String.ofList ((front.map String.toList ++ [last.toList]).flatten) := by
      simp [join, List.flatMap_def]
    rw [hchars]
    refine Inflection.underscore_singularize_camel fun word hword => ?_
    obtain ⟨source, hsource, rfl⟩ := List.mem_map.1
      (show word ∈ (front ++ [last]).map String.toList by simpa using hword)
    exact hcamel source (by simpa using hsource)

/-- The singular of a name in CamelCase can be taken before or after the name is written in
snake_case. So a lookup of the name, a join from it and a walk from it, all ask for one entity, with
every adapter, and stand on the same table or have the same fault. -/
theorem queries_ask_alike {name : List String} (hne : name ≠ [])
    (hcamel : ∀ word ∈ name, CamelWord word.toList) :
    underscore (singularize (join name)) = singularize (underscore (join name)) ∧
    ∀ field association result : List String, Identifier.VerbFree name →
      field.count "By" = 0 → association ≠ [] → association.count "By" ≤ 1 →
      Identifier.VerbFree result → result ≠ [] →
      ∀ lookup joined walk : String,
        Spells (name ++ ["By"] ++ field) (Text.trimmed lookup) →
        Spells (name ++ ["Joined", "With"] ++ association) (Text.trimmed joined) →
        Spells (result ++ ["From"] ++ name) (Text.trimmed walk) →
        (AsksFor lookup (singularize (underscore (join name))) ∧
          AsksFor joined (singularize (underscore (join name))) ∧
          AsksFor walk (singularize (underscore (join name)))) ∧
        ∀ settings, tableOf settings lookup = tableOf settings joined ∧
          tableOf settings lookup = tableOf settings walk := by
  have hsame := underscore_singularize_join hne hcamel
  refine ⟨hsame, ?_⟩
  intro field association result hname hfield hassociation hassociationBy hresult hresultNe
    lookup joined walk hlookup hjoined hwalk
  -- Each of the three builders inflects before or after it sets underscores, which is the same here.
  have hasksLookup := asksFor_lookup hlookup hname hne hfield
  have hasksJoined := asksFor_join hjoined hname hne hassociation hassociationBy
  have hasksWalk := asksFor_walk hwalk hresult hresultNe hne (by rw [hname.count_by]; omega)
  rw [hsame] at hasksLookup hasksJoined
  refine ⟨⟨hasksLookup, hasksJoined, hasksWalk⟩, fun settings => ?_⟩
  rw [hasksLookup settings, hasksJoined settings, hasksWalk settings]
  exact ⟨rfl, rfl⟩

/-- The statuses of an order are one entity for every verb. -/
theorem orderStatuses_ask_alike :
    (AsksFor "OrderStatusesByCode" "order_status" ∧
      AsksFor " OrderStatusesJoinedWithOrderLines\n" "order_status" ∧
      AsksFor "OrdersFromOrderStatuses" "order_status") ∧
    ∀ settings,
      tableOf settings "OrderStatusesByCode" =
        tableOf settings " OrderStatusesJoinedWithOrderLines\n" ∧
      tableOf settings "OrderStatusesByCode" = tableOf settings "OrdersFromOrderStatuses" := by
  have hcamel : ∀ word ∈ ["Order", "Statuses"], CamelWord word.toList := by
    rintro word (_ | ⟨_, _ | ⟨_, hnil⟩⟩)
    · exact .intro (by decide) (by decide) (by decide)
    · exact .intro (by decide) (by decide) (by decide)
    · cases hnil
  have hentity : singularize (underscore (join ["Order", "Statuses"])) = "order_status" := by rfl
  have hname : Identifier.VerbFree ["Order", "Statuses"] :=
    .of_notMem (by decide) (by decide) (by decide)
  have hresult : Identifier.VerbFree ["Orders"] := .of_notMem (by decide) (by decide) (by decide)
  obtain ⟨hasks, hsame⟩ := (queries_ask_alike (by decide) hcamel).2
    ["Code"] ["Order", "Lines"] ["Orders"]
    hname (by decide) (by decide) (by decide) hresult (by decide)
    "OrderStatusesByCode" " OrderStatusesJoinedWithOrderLines\n" "OrdersFromOrderStatuses"
    (Identifier.words?_eq_some_iff_spells.1 (by rfl))
    (Identifier.words?_eq_some_iff_spells.1 (by rfl))
    (Identifier.words?_eq_some_iff_spells.1 (by rfl))
  rw [hentity] at hasks
  exact ⟨hasks, hsame⟩

end NamedQuery
