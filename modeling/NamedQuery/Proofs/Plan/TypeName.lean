import NamedQuery.Proofs.Engine.Runs
import NamedQuery.Proofs.Inflection.Names
import NamedQuery.Proofs.Inflection.PluralRoundTrip
import NamedQuery.Proofs.Plan.Entity
import NamedQuery.Proofs.Plan.Kind

/-! # The type name of a collection

Walks and joins name the type of a collection by the collection as it is called. Lookups name it by the
plural of the singular, which is the same name only if the last word comes back on this way
(`collection_typeNames`). -/

namespace NamedQuery

open Identifier (Spells VerbFree join)
open Inflection (CamelWord camelize comesBack isPlural lowered pluralize singularize underscore)

/-! ## Names -/

namespace Inflection

open Identifier (isWord)

section CamelName

variable {front : List (List Char)} {last : List Char}
  (h : ∀ word ∈ front ++ [last], CamelWord word)
include h

theorem underscore_camelWords : underscore (String.ofList ((front ++ [last]).flatten)) =
    snakeName (front.map lowered ++ [lowered last]) := by
  rw [underscore_camel (fun word hword => h word (by simp [hword])) (h last (by simp)).isWord,
    List.map_append, List.map_singleton, snakeName]

/-- The words of a name stand in capitals as they did before, with another last word. -/
theorem camelize_lowered {made : List Char} (hmade : Small made) :
    camelize (snakeName (front.map lowered ++ [made])) =
      String.ofList (front.flatten ++ capitalize made) := by
  have hfront : ∀ word ∈ front, isWord word := fun word hword => (h word (by simp [hword])).isWord
  have hsmall : ∀ word ∈ front.map lowered ++ [made], Small word := by
    intro word hword
    rcases List.mem_append.1 hword with hword | hword
    · obtain ⟨source, hsource, rfl⟩ := List.mem_map.1 hword
      exact small_lowered (hfront source hsource)
    · rwa [List.mem_singleton.1 hword]
  have hsame : (front.map lowered).map capitalize = front := by
    have hword : ∀ word ∈ front, (capitalize ∘ lowered) word = id word :=
      fun word hword => capitalize_lowered (hfront word hword)
    rw [List.map_map, List.map_congr_left hword, List.map_id]
  rw [snakeName, camelize_snake hsmall, List.flatMap_def, List.map_append, hsame, List.flatten_append]
  simp

theorem camelize_underscore_camelWords :
    camelize (underscore (String.ofList ((front ++ [last]).flatten))) =
      String.ofList ((front ++ [last]).flatten) := by
  have hlast := (h last (by simp)).isWord
  rw [underscore_camelWords h, camelize_lowered h (small_lowered hlast), capitalize_lowered hlast,
    List.flatten_concat]

theorem plural_lowered (hplural : isPlural (String.ofList ((front ++ [last]).flatten))) :
    Direction.toPlural.inflectWord (lowered last) = lowered last := by
  have hlast := (h last (by simp)).isWord
  rw [isPlural, beq_iff_eq, pluralize, String.toList_ofList,
    Direction.inflect_camel _ (fun word hword => h word (by simp [hword])) hlast] at hplural
  have hword := String.ofList_injective hplural
  rw [List.flatten_concat, List.flatten_concat, List.append_cancel_left_eq] at hword
  rw [Direction.inflectWord_lowered Direction.toPlural_inSmallLetters (ascii_of_isWord hlast), hword]

/-- The snake_case form of a plural is its own plural. -/
theorem pluralize_underscore (hplural : isPlural (String.ofList ((front ++ [last]).flatten))) :
    pluralize (underscore (String.ofList ((front ++ [last]).flatten))) =
      underscore (String.ofList ((front ++ [last]).flatten)) := by
  rw [underscore_camelWords h, pluralize, snakeName, String.toList_ofList,
    Direction.inflect_snake _ _ (small_lowered (h last (by simp)).isWord), plural_lowered h hplural]

/-- The plural of the singular is the name itself just if the last word comes back. -/
theorem camelize_plural_singular_iff :
    camelize (pluralize (underscore (singularize (String.ofList ((front ++ [last]).flatten))))) =
        String.ofList ((front ++ [last]).flatten) ↔
      comesBack (lowered last) = true := by
  have hfront : ∀ word ∈ front, CamelWord word := fun word hword => h word (by simp [hword])
  have hlast := h last (by simp)
  have hascii := ascii_of_isWord hlast.isWord
  obtain ⟨hsingular, hsingularNe⟩ := small_singular hlast.isWord hlast.two_le_length
  have hmade := Direction.small_plural hsingular hsingularNe
  rw [← plural_singular_iff hlast.isWord hlast.two_le_length, singularize, String.toList_ofList,
    Direction.inflect_camel _ hfront hlast.isWord,
    underscore_camel hfront (Direction.isWord_singular hlast.isWord hlast.two_le_length),
    List.map_append, List.map_singleton,
    ← Direction.inflectWord_lowered Direction.toSingular_inSmallLetters hascii, pluralize,
    String.toList_ofList, Direction.inflect_snake _ _ hsingular]
  have hcamel := camelize_lowered h hmade
  rw [snakeName] at hcamel
  rw [hcamel, List.flatten_concat]
  -- All words but the last one are the same on both sides.
  constructor
  · intro heq
    have hwords := List.append_cancel_left (String.ofList_injective heq)
    rw [← hmade.lowered_capitalize, hwords]
  · intro heq
    rw [heq, capitalize_lowered hlast.isWord]

end CamelName

end Inflection

/-! ## Plans -/

namespace Plan

variable {intent : Intent} {adapter : Adapter} {plan : Plan}

theorem typeName_lookup (h : lookup intent adapter = .ok plan) (hplural : isPlural intent.entity) :
    plan.typeName = "Get" ++ camelize (pluralize (underscore (singularize intent.entity))) := by
  obtain ⟨_, hkind, hmany, htarget⟩ := lookup_ok h
  rw [typeName, hkind, hmany, if_pos hplural, htarget]

theorem typeName_join (h : join intent adapter = .ok plan) :
    plan.typeName = "Get" ++ camelize (pluralize (underscore intent.entity)) := by
  obtain ⟨_, ⟨base, key, hkind⟩, hmany, htarget⟩ := join_ok h
  rw [typeName, hkind, hmany, if_pos rfl, htarget]

theorem typeName_walk (h : walk intent adapter = .ok plan) :
    plan.typeName = "Get" ++ camelize (underscore intent.entity) := by
  obtain ⟨_, anchor, hkind⟩ := walk_ok h
  rw [typeName, hkind]

end Plan

/-! ## Queries -/

/-- The queries for a collection by its name, with their verbs. -/
inductive Fetches (name : List String) (text : String) : Verb → Prop where
  | all : Spells ("All" :: name) (Text.trimmed text) → Fetches name text .all
  | byField {field : List String} :
      Spells (name ++ ["By"] ++ field) (Text.trimmed text) → Fetches name text .byField
  | fromAnchor {anchor : List String} :
      Spells (name ++ ["From"] ++ anchor) (Text.trimmed text) → Fetches name text .fromAnchor
  | joinedWith {key : List String} :
      Spells (name ++ ["Joined", "With"] ++ key) (Text.trimmed text) → Fetches name text .joinedWith

/-- If such a query can be read at all, it is read as one for the name. -/
theorem Fetches.intent_eq {name : List String} {text : String} {verb : Verb} {intent : Intent}
    (h : Fetches name text verb) (hne : name ≠ []) (hfree : VerbFree name)
    (hplural : isPlural (join name)) (hread : Identifier.read text = .query intent) :
    intent.entity = join name ∧ intent.verb = verb := by
  -- With several words `By` it would be no query.
  have hcount : ∀ {words : List String}, Spells words (Text.trimmed text) → words.count "By" ≤ 1 := by
    intro words hspells
    refine Nat.le_of_not_lt fun hseveral => ?_
    rw [Identifier.read_of_severalBy hspells hseveral] at hread
    cases hread
  have hverb : ∀ {verb : Verb} {token key : List String}, Identifier.VerbToken verb token →
      Spells (name ++ token ++ key) (Text.trimmed text) →
        intent.entity = join name ∧ intent.verb = verb := by
    intro verb token key htoken hspells
    have hby := hcount hspells
    rw [List.append_assoc, List.count_append] at hby
    rw [Identifier.read_query hspells hfree hne htoken (by omega)] at hread
    cases hread
    exact ⟨rfl, rfl⟩
  cases h with
  | byField hspells => exact hverb .byField hspells
  | fromAnchor hspells => exact hverb .fromAnchor hspells
  | joinedWith hspells => exact hverb .joinedWith hspells
  | all hspells =>
    have hgrammar := Identifier.Grammar.all hspells (hcount hspells) hne hplural
      fun position hposition hat => by
        cases position with
        | zero => omega
        | succ position => exact hfree position hat
    rw [Identifier.read_of_grammar hgrammar] at hread
    cases hread
    exact ⟨rfl, rfl⟩

/-! ## Main statement -/

/-- The type names of a collection. Whatever is looked up by a plural name, joined from it or reached
by a walk, the plans of walks and joins name their type by this very name, and those of lookups by the
plural of its singular. The two are the same just if the last word is the plural of its singular. -/
theorem collection_typeNames {front : List String} {last : String} {name : List String}
    (hname : name = front ++ [last]) (hcamel : ∀ word ∈ name, CamelWord word.toList)
    (hfree : VerbFree name) (hplural : isPlural (join name)) :
    let own := "Get" ++ join name
    let byLookup := "Get" ++ camelize (pluralize (underscore (singularize (join name))))
    (∀ text verb settings plan, Fetches name text verb →
      Engine.plan? settings text = .ok (some plan) →
      plan.typeName = if verb = .all ∨ verb = .byField then byLookup else own) ∧
    (byLookup = own ↔ comesBack (lowered last.toList) = true) := by
  intro own byLookup
  subst hname
  have hjoin : join (front ++ [last]) =
      String.ofList ((front.map String.toList ++ [last.toList]).flatten) := by
    simp [join, List.flatMap_def]
  have hwords : ∀ word ∈ front.map String.toList ++ [last.toList], CamelWord word := by
    intro word hword
    obtain ⟨source, hsource, rfl⟩ := List.mem_map.1
      (show word ∈ (front ++ [last]).map String.toList by simpa using hword)
    exact hcamel source hsource
  have hback : camelize (underscore (join (front ++ [last]))) = join (front ++ [last]) := by
    rw [hjoin, Inflection.camelize_underscore_camelWords hwords]
  have hkeep : pluralize (underscore (join (front ++ [last]))) = underscore (join (front ++ [last])) := by
    rw [hjoin] at hplural ⊢
    exact Inflection.pluralize_underscore hwords hplural
  constructor
  · intro text verb settings plan hfetches hplan
    obtain ⟨intent, adapter, hread, _, hintent⟩ := Engine.intent_of_plan? hplan
    obtain ⟨hentity, hverb⟩ := hfetches.intent_eq (by simp) hfree hplural hread
    rw [← hentity] at hplural
    unfold Plan.ofIntent at hintent
    rw [hverb] at hintent
    -- A lookup goes through the singular, the other two keep the name as it is written.
    cases verb with
    | all | byField =>
      rw [Plan.typeName_lookup hintent hplural, hentity]
      rfl
    | fromAnchor =>
      rw [Plan.typeName_walk hintent, hentity, hback]
      rfl
    | joinedWith =>
      rw [Plan.typeName_join hintent, hentity, hkeep, hback]
      rfl
  · rw [String.append_right_inj, hjoin]
    exact Inflection.camelize_plural_singular_iff hwords

def heroes : Store := Store.empty.withTable "heroes" []

/-- Heroes have one type name where they are looked up and another where they are joined from. -/
theorem heroes_have_two_typeNames :
    ∃ lookup joined,
      Engine.plan? (.on heroes) "HeroesByName" = .ok (some lookup) ∧
      Engine.plan? (.on heroes) "HeroesJoinedWithTeams" = .ok (some joined) ∧
      lookup.typeName ≠ joined.typeName := by
  have hcamel : ∀ word ∈ ["Heroes"], CamelWord word.toList := by
    intro word hword
    rw [List.mem_singleton.1 hword]
    exact .intro (by decide) (by decide) (by decide)
  have hwords : ["Heroes"] = [] ++ ["Heroes"] := rfl
  obtain ⟨hnames, hsame⟩ := collection_typeNames hwords hcamel
    (.of_notMem (by decide) (by decide) (by decide)) (by decide)
  have hlookup : Identifier.read "HeroesByName" =
      .query ⟨"HeroesByName", "Heroes", .byField, some "name"⟩ := by rfl
  have hjoined : Identifier.read "HeroesJoinedWithTeams" =
      .query ⟨"HeroesJoinedWithTeams", "Heroes", .joinedWith, some "teams"⟩ := by rfl
  have hlookupWords : Spells (["Heroes"] ++ ["By"] ++ ["Name"]) (Text.trimmed "HeroesByName") :=
    Identifier.words?_eq_some_iff_spells.1 (by rfl)
  have hjoinedWords :
      Spells (["Heroes"] ++ ["Joined", "With"] ++ ["Teams"]) (Text.trimmed "HeroesJoinedWithTeams") :=
    Identifier.words?_eq_some_iff_spells.1 (by rfl)
  have hadapter : (Settings.on heroes).adapter = .ok heroes.adapter := rfl
  have htable : Plan.tableFor heroes.adapter (underscore (singularize "Heroes")) = .ok "heroes" := by rfl
  obtain ⟨lookup, hlookupPlan, -⟩ := (standsOn_lookup ..).plan?_eq hlookup hadapter htable
  obtain ⟨joined, hjoinedPlan, -⟩ := (standsOn_join ..).plan?_eq hjoined hadapter htable
  have hlookupName := hnames _ _ _ _ (.byField hlookupWords) hlookupPlan
  have hjoinedName := hnames _ _ _ _ (.joinedWith hjoinedWords) hjoinedPlan
  refine ⟨lookup, joined, hlookupPlan, hjoinedPlan, fun heq => ?_⟩
  rw [hlookupName, hjoinedName] at heq
  exact absurd (hsame.1 heq) (by decide)

end NamedQuery
