import NamedQuery.Proofs.Engine.Runs
import NamedQuery.Proofs.Inflection.RoundTrip
import NamedQuery.Proofs.Plan.Entity
import NamedQuery.Proofs.Store.Tables

/-! # The table of the plural name

A store goes from its tables to entities, by the singular of each name, and so an entity does not
always find the table that has its plural as its name. It does if it is the singular of its plural and
no later table has the same singular (`finds_plural_iff`). Whether a name is the singular of its plural
depends on its last word, and can be read off the ending of this word (`singularize_pluralize_iff`). -/

namespace NamedQuery

open Identifier (Spells)
open Inflection (Direction Small goesBack pluralize singularize underscore)

namespace Inflection

/-- A name in snake_case is the singular of its plural just if its last word is. -/
theorem singularize_pluralize_iff {words : List String} {last : String}
    (hlast : words.getLast? = some last) (hne : last ≠ "") (hsmall : Small last.toList)
    (hoxen : "oxen".toList <+: last.toList → last = "oxen") :
    singularize (pluralize ("_".intercalate words)) = "_".intercalate words ↔
      goesBack last.toList = true := by
  obtain ⟨front, rfl⟩ : ∃ front, words = front ++ [last] := List.getLast?_eq_some_iff.1 hlast
  have hword : last.toList ≠ [] := fun h => hne (String.toList_eq_nil_iff.1 h)
  rw [← singular_plural_iff hsmall hword fun h => congrArg String.toList (hoxen h),
    intercalate_eq_snakeName, List.map_append, List.map_singleton, pluralize, snakeName,
    String.toList_ofList, Direction.inflect_snake _ _ hsmall, singularize, String.toList_ofList,
    Direction.inflect_snake _ _ (Direction.small_plural hsmall hword)]
  constructor
  · intro h
    exact snakeName_inj h
  · intro h
    rw [h]

end Inflection

/-- A query stands on the table that the store has for the entity, and fails if there is none. -/
theorem AsksFor.tableOf_store {text entity : String} (h : AsksFor text entity) {settings : Settings}
    {store : Store} (hadapter : settings.adapter = .ok store.adapter) :
    tableOf settings text =
      match store.tableFor? entity with
      | some table => .ok (some table)
      | none => .error (.unknownEntity entity) := by
  rw [h settings, hadapter]
  show (Plan.tableFor store.adapter entity).map some = _
  simp only [Plan.tableFor, Store.adapter]
  cases store.tableFor? entity <;> rfl

/-! ## Main statement -/

/-- An entity finds the table of its plural name just if this is the last table that has the entity as
its singular, or if the two names are the same and no table has it as its singular. What the collection
asks for, the singular of the plural, finds this table unless a later one has the same singular. Where
there is no table of the plural name, an entity finds the table of its own name unless a later one has
it as its singular, or any one does and it is not its own singular. The table that is found is the one
that a query for the entity stands on, and if there is none the query fails. -/
theorem finds_plural_iff {store : Store} (hmade : store.Made) (words : List String) :
    let entity := "_".intercalate words
    let plural := pluralize entity
    let names := store.tables.names
    (plural ∈ names →
      (store.tableFor? entity = some plural ↔
        (singularize plural = entity ∧
          ∀ table ∈ names, singularize table = entity → table ≤ plural) ∨
        (plural = entity ∧ ∀ table ∈ names, singularize table ≠ entity)) ∧
      (store.tableFor? (singularize plural) = some plural ↔
        ∀ table ∈ names, singularize table = singularize plural → table ≤ plural)) ∧
    (plural ∉ names → entity ∈ names →
      (store.tableFor? entity = some entity ↔
        ∀ table ∈ names, singularize table = entity → singularize entity = entity ∧ table ≤ entity)) ∧
    (∀ last, words.getLast? = some last → last ≠ "" → Small last.toList →
      ("oxen".toList <+: last.toList → last = "oxen") →
      (singularize plural = entity ↔ goesBack last.toList = true)) ∧
    ∀ settings : Settings, settings.adapter = .ok store.adapter →
      ∀ text asked, AsksFor text asked →
        tableOf settings text =
          match store.tableFor? asked with
          | some table => .ok (some table)
          | none => .error (.unknownEntity asked) := by
  intro entity plural names
  have hsorted := hmade.sorted
  refine ⟨fun hplural => ⟨Store.tableFor?_eq_some_iff hsorted hplural, ?_⟩, fun _ hentity => ?_,
    fun last hlast hne hsmall hoxen => Inflection.singularize_pluralize_iff hlast hne hsmall hoxen,
    fun settings hadapter text asked hasks => hasks.tableOf_store hadapter⟩
  · rw [Store.tableFor?_eq_some_iff hsorted hplural]
    constructor
    · rintro (⟨_, hgreatest⟩ | ⟨_, hnone⟩)
      · exact hgreatest
      · exact fun table htable hsame => absurd hsame (hnone table htable)
    · exact fun hgreatest => .inl ⟨rfl, hgreatest⟩
  · rw [Store.tableFor?_eq_some_iff hsorted hentity]
    constructor
    · rintro (⟨hsingular, hgreatest⟩ | ⟨_, hnone⟩) table htable hsame
      · exact ⟨hsingular, hgreatest table htable hsame⟩
      · exact absurd hsame (hnone table htable)
    · intro h
      -- If any table has the entity as its singular, the one of its own name is the last of them.
      by_cases hnone : ∃ table ∈ names, singularize table = entity
      · obtain ⟨table, htable, hsame⟩ := hnone
        exact .inl ⟨(h table htable hsame).1, fun other hother heq => (h other hother heq).2⟩
      · exact .inr ⟨rfl, fun table htable hsame => hnone ⟨table, htable, hsame⟩⟩

def caches : Store := Store.empty.withTable "caches" []

/-- The plural of a cache goes back to another word, so one cache is not found where many are. -/
theorem cache_not_found :
    pluralize "cache" ∈ caches.tables.names ∧ caches.tableFor? "cache" ≠ some (pluralize "cache") ∧
      tableOf (.on caches) "CacheById" = .error (.unknownEntity "cache") ∧
      tableOf (.on caches) "CachesById" = .ok (some (pluralize "cache")) := by
  have hmade : caches.Made := .withTable _ _ .empty
  have hplural : pluralize "cache" = "caches" := by rfl
  have hname : "_".intercalate ["cache"] = "cache" := by rfl
  obtain ⟨hfinds, -, hback, hstands⟩ := finds_plural_iff hmade ["cache"]
  rw [hname, hplural] at hfinds hback
  obtain ⟨hone, hmany⟩ := hfinds (by decide)
  have hnotBack : singularize "caches" ≠ "cache" := fun h =>
    absurd ((hback "cache" rfl (by decide) (by decide) (by decide)).1 h) (by decide)
  have hnone : caches.tableFor? "cache" = none := by rfl
  have hfound : caches.tableFor? (singularize "caches") = some "caches" :=
    hmany.2 fun table htable _ => by
      obtain rfl := List.mem_singleton.1 (show table ∈ ["caches"] from htable)
      exact String.le_refl _
  have hcacheWords : Spells (["Cache"] ++ ["By"] ++ ["Id"]) (Text.trimmed "CacheById") :=
    Identifier.words?_eq_some_iff_spells.1 (by rfl)
  have hcachesWords : Spells (["Caches"] ++ ["By"] ++ ["Id"]) (Text.trimmed "CachesById") :=
    Identifier.words?_eq_some_iff_spells.1 (by rfl)
  have hcache := asksFor_lookup hcacheWords (.of_notMem (by decide) (by decide) (by decide))
    (by decide) (by decide)
  have hcaches := asksFor_lookup hcachesWords (.of_notMem (by decide) (by decide) (by decide))
    (by decide) (by decide)
  rw [show underscore (singularize (Identifier.join ["Cache"])) = "cache" by rfl] at hcache
  rw [show underscore (singularize (Identifier.join ["Caches"])) = singularize "caches" by rfl]
    at hcaches
  rw [hplural]
  refine ⟨by decide, ?_, ?_, ?_⟩
  · rw [Ne, hone]
    rintro (⟨h, _⟩ | ⟨h, _⟩)
    · exact hnotBack h
    · exact absurd h (by decide)
  · rw [hstands _ rfl _ _ hcache, hnone]
  · rw [hstands _ rfl _ _ hcaches, hfound]

end NamedQuery
