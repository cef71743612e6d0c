import NamedQuery.Proofs.Engine.Caches
import NamedQuery.Proofs.Plan.Entity
import NamedQuery.Proofs.Store.Tables

/-! # Queries for regular names

A regular name in CamelCase, singular or plural, stands for its entity in every place of a query
(`Form`), and a store that has a table with the plural as its name, and no other table for the entity,
lets every such query stand on this table (`regular_names_resolve`). -/

namespace NamedQuery

open Identifier (Spells VerbFree join isWord)
open Inflection (CamelWord Letters NumberPair NamePair Regular capitalize camelName snakeName camelize
  isPlural pluralize singularize underscore)

/-! ## Forms of an entity -/

/-- Words that stand for an entity wherever a query can name it. -/
structure Form (entity : String) (words : List String) : Prop where
  nonempty : words ≠ []
  isWord : ∀ word ∈ words, isWord word.toList
  verbFree : VerbFree words
  underscore_singularize : underscore (singularize (join words)) = entity
  singularize_underscore : singularize (underscore (join words)) = entity

def capitals (words : List (List Char)) : List String :=
  words.map fun word => String.ofList (capitalize word)

theorem join_capitals (words : List (List Char)) : join (capitals words) = camelName words := by
  simp [join, capitals, camelName, List.flatMap_def, Function.comp_def]

theorem camelWord_capitals {words : List (List Char)} (h : ∀ word ∈ words, Letters word) :
    ∀ word ∈ capitals words, CamelWord word.toList := by
  intro word hword
  obtain ⟨source, hsource, rfl⟩ := List.mem_map.1 hword
  rw [String.toList_ofList]
  exact (h source hsource).camelWord_capitalize

theorem verbFree_capitals {words : List (List Char)} (h : ∀ word ∈ words, Letters word)
    (hnoVerb : ∀ verb ∈ ["by", "from", "joined"], verb.toList ∉ words) :
    VerbFree (capitals words) := by
  have hnot : ∀ verb : String, Inflection.lowered verb.toList ∉ words → verb ∉ capitals words := by
    intro verb hverb hmem
    obtain ⟨source, hsource, rfl⟩ := List.mem_map.1 hmem
    rw [String.toList_ofList, (h source hsource).lowered_capitalize] at hverb
    exact hverb hsource
  exact .of_notMem (hnot "By" (hnoVerb "by" (by simp))) (hnot "From" (hnoVerb "from" (by simp)))
    (hnot "Joined" (hnoVerb "joined" (by simp)))

/-- A name in CamelCase is a form of what its singular is, if both spellings have the same one. -/
theorem form_of_capitals {front : List (List Char)} {one last : List Char}
    (hletters : ∀ word ∈ front ++ [last], Letters word) (hone : Letters one)
    (hnoVerb : ∀ verb ∈ ["by", "from", "joined"], verb.toList ∉ front ++ [last])
    (hcamel : singularize (camelName (front ++ [last])) = camelName (front ++ [one]))
    (hsnake : singularize (snakeName (front ++ [last])) = snakeName (front ++ [one])) :
    Form (snakeName (front ++ [one])) (capitals (front ++ [last])) := by
  have hfront : ∀ word ∈ front, Letters word := fun word hword => hletters word (by simp [hword])
  constructor
  · simp [capitals]
  · exact fun word hword => (camelWord_capitals hletters word hword).isWord
  · exact verbFree_capitals hletters hnoVerb
  · rw [join_capitals, hcamel, Inflection.underscore_camelName hfront hone]
  · rw [join_capitals, Inflection.underscore_camelName hfront (hletters last (by simp)), hsnake]

/-- A regular name has two forms in queries, its singular and its plural. -/
theorem forms_of_regular {words : List String} (h : Regular words) :
    ∃ one many, join one = camelize ("_".intercalate words) ∧
      join many = pluralize (camelize ("_".intercalate words)) ∧
      NamePair (join one) (join many) ∧
      Form ("_".intercalate words) one ∧ Form ("_".intercalate words) many := by
  obtain ⟨front, one, many, hfront, hone, hmany, hwords, hpair⟩ := h.exists_plural
  have hletters : ∀ last, Letters last → ∀ word ∈ front ++ [last], Letters word := by
    intro last hlast word hword
    rcases List.mem_append.1 hword with hword | hword
    · exact hfront word hword
    · rwa [List.mem_singleton.1 hword]
  have hnoVerb : ∀ verb ∈ ["by", "from", "joined"], verb.toList ∉ front ++ [one] := by
    intro verb hverb hmem
    rw [← hwords] at hmem
    obtain ⟨word, hword, heq⟩ := List.mem_map.1 hmem
    rw [String.toList_inj.1 heq] at hword
    exact h.noVerb verb hverb hword
  have hnoVerb' : ∀ verb ∈ ["by", "from", "joined"], verb.toList ∉ front ++ [many] := by
    -- The plural of the last word makes no verb token either: none of these is a plural.
    have hplural : ∀ verb ∈ ["by", "from", "joined"],
        Inflection.Direction.toPlural.inflectWord verb.toList ≠ verb.toList := by decide
    intro verb hverb hmem
    rcases List.mem_append.1 hmem with hmem | hmem
    · exact hnoVerb verb hverb (List.mem_append_left _ hmem)
    · rw [← List.mem_singleton.1 hmem] at hpair
      exact hplural verb hverb hpair.plural_many
  have hcamel : NamePair (camelName (front ++ [one])) (camelName (front ++ [many])) :=
    hpair.camelName hfront hone hmany
  have hsnake : NamePair (snakeName (front ++ [one])) (snakeName (front ++ [many])) :=
    hpair.snakeName hone hmany
  rw [Inflection.intercalate_eq_snakeName, hwords, Inflection.camelize_snakeName (hletters one hone),
    hcamel.plural_one]
  refine ⟨_, _, join_capitals _, join_capitals _, ?_, ?_, ?_⟩
  · rwa [join_capitals, join_capitals]
  · exact form_of_capitals (hletters one hone) hone hnoVerb hcamel.singular_one hsnake.singular_one
  · exact form_of_capitals (hletters many hmany) hone hnoVerb' hcamel.singular_many
      hsnake.singular_many

/-! ## Queries -/

/-- Words next to a verb, without a verb token among them. -/
def Free (text : String) : Prop :=
  ∃ words, (∀ word ∈ words, isWord word.toList) ∧ VerbFree words ∧ text = join words

/-- How a query can name an entity, and whether this is a plural. -/
inductive Names (entity : String) : String → Bool → Prop where
  | one : Names entity (camelize entity) false
  | many : Names entity (pluralize (camelize entity)) true

/-- Queries for an entity, each with what the entity decides about the number of its results. -/
inductive QueryFor (entity : String) : String → Option Bool → Prop where
  | lookup {name field : String} {plural : Bool} : Names entity name plural → Free field →
      QueryFor entity (name ++ "By" ++ field) (some plural)
  | all : QueryFor entity ("All" ++ pluralize (camelize entity)) (some true)
  | joined {name association : String} {plural : Bool} : Names entity name plural →
      Free association → association ≠ "" →
      QueryFor entity (name ++ "JoinedWith" ++ association) (some true)
  | walk {name result : String} {plural : Bool} : Names entity name plural →
      Free result → result ≠ "" → QueryFor entity (result ++ "From" ++ name) none

theorem join_append (words others : List String) :
    join (words ++ others) = join words ++ join others := by
  rw [← String.toList_inj, String.toList_append]
  simp only [Identifier.toList_join, List.flatMap_append]

/-- What is put before and behind a verb is read again, if neither holds a verb token. -/
theorem read_around_verb {entity token key : List String} {verb : Verb}
    (hentity : ∀ word ∈ entity, isWord word.toList) (hentityFree : VerbFree entity)
    (hne : entity ≠ []) (htoken : Identifier.VerbToken verb token)
    (hkey : ∀ word ∈ key, isWord word.toList) (hkeyFree : VerbFree key) :
    ∃ identifier, Identifier.read (join entity ++ join token ++ join key) =
      .query ⟨identifier, join entity, verb, Identifier.keyOf (join key)⟩ := by
  have htokenWords : (∀ word ∈ token, isWord word.toList) ∧ token.count "By" ≤ 1 := by
    cases htoken <;> decide
  have hspells : Spells (entity ++ token ++ key) (join entity ++ join token ++ join key) := by
    refine ⟨by simp [hne], fun word hword => ?_, by rw [join_append, join_append]⟩
    rcases List.mem_append.1 hword with hword | hword
    · rcases List.mem_append.1 hword with hword | hword
      · exact hentity word hword
      · exact htokenWords.1 word hword
    · exact hkey word hword
  -- Where there is a `By`, it is that of the token.
  have hby : (token ++ key).count "By" ≤ 1 := by
    rw [List.count_append, hkeyFree.count_by]
    exact htokenWords.2
  exact ⟨_, Identifier.read_query (hspells.trimmed.symm ▸ hspells) hentityFree hne htoken hby⟩

namespace Form

variable {entity : String} {words : List String} (h : Form entity words)
include h

theorem lookup {field : String} (hfield : Free field) :
    ∃ intent, Identifier.read (join words ++ "By" ++ field) = .query intent ∧
      StandsOn intent entity (isPlural (join words)) := by
  obtain ⟨key, hkey, hfree, rfl⟩ := hfield
  obtain ⟨identifier, hread⟩ :=
    read_around_verb h.isWord h.verbFree h.nonempty .byField hkey hfree
  refine ⟨_, hread, ?_⟩
  rw [← h.underscore_singularize]
  exact standsOn_lookup ..

theorem joined {association : String} (hassociation : Free association) (hne : association ≠ "") :
    ∃ intent, Identifier.read (join words ++ "JoinedWith" ++ association) = .query intent ∧
      StandsOn intent entity true := by
  obtain ⟨key, hkey, hfree, rfl⟩ := hassociation
  obtain ⟨identifier, hread⟩ :=
    read_around_verb h.isWord h.verbFree h.nonempty .joinedWith hkey hfree
  rw [Identifier.keyOf, if_neg hne] at hread
  refine ⟨_, hread, ?_⟩
  rw [← h.underscore_singularize]
  exact standsOn_join ..

theorem walk {result : String} (hresult : Free result) (hne : result ≠ "") :
    ∃ intent, Identifier.read (result ++ "From" ++ join words) = .query intent ∧
      StandsOn intent entity (isPlural result) := by
  obtain ⟨resultWords, hwords, hfree, rfl⟩ := hresult
  have hresultNe : resultWords ≠ [] := by
    rintro rfl
    exact hne rfl
  obtain ⟨identifier, hread⟩ :=
    read_around_verb hwords hfree hresultNe .fromAnchor h.isWord h.verbFree
  have hkeyNe : join words ≠ "" := fun heq =>
    h.nonempty ((Identifier.join_eq_empty_iff h.isWord).1 heq)
  rw [Identifier.keyOf, if_neg hkeyNe] at hread
  refine ⟨_, hread, ?_⟩
  rw [← h.singularize_underscore]
  exact standsOn_walk ..

theorem all (hplural : isPlural (join words)) :
    ∃ intent, Identifier.read ("All" ++ join words) = .query intent ∧
      StandsOn intent entity true := by
  have hspells : Spells ("All" :: words) ("All" ++ join words) := by
    refine ⟨by simp, fun word hword => ?_, by rw [← List.singleton_append, join_append]; rfl⟩
    rcases List.mem_cons.1 hword with rfl | hword
    · decide
    · exact h.isWord word hword
  have hby : ("All" :: words).count "By" ≤ 1 := by
    rw [List.count_cons, h.verbFree.count_by]
    decide
  have hread : Identifier.read ("All" ++ join words) =
      .query ⟨Text.trimmed ("All" ++ join words), join words, .all, none⟩ := by
    refine Identifier.read_of_grammar (.all (hspells.trimmed.symm ▸ hspells) hby h.nonempty hplural ?_)
    -- A verb counts from the second word on, where the name's own words stand.
    intro position hposition hat
    cases position with
    | zero => omega
    | succ position => exact h.verbFree position hat
  refine ⟨_, hread, ?_⟩
  rw [← h.underscore_singularize, ← hplural]
  exact standsOn_all ..

end Form

/-- What a query for a regular name is read as stands on the entity of this name, with the number that
the query has. -/
theorem QueryFor.standsOn {words : List String} (h : Regular words) {identifier : String}
    {number : Option Bool} (hquery : QueryFor ("_".intercalate words) identifier number) :
    ∃ intent isCollection, Identifier.read identifier = .query intent ∧
      StandsOn intent ("_".intercalate words) isCollection ∧ ∀ plural ∈ number, isCollection = plural := by
  obtain ⟨one, many, hone, hmany, hpair, honeForm, hmanyForm⟩ := forms_of_regular h
  -- A name is the singular or the plural, and as words each of them stands for the entity.
  have hnames : ∀ {name plural}, Names ("_".intercalate words) name plural →
      ∃ form, join form = name ∧ Form ("_".intercalate words) form ∧ isPlural (join form) = plural := by
    rintro _ _ (_ | _)
    · exact ⟨one, hone, honeForm, hpair.not_isPlural_one⟩
    · exact ⟨many, hmany, hmanyForm, hpair.isPlural_many⟩
  cases hquery with
  | lookup hname hfield =>
    obtain ⟨form, rfl, hform, hplural⟩ := hnames hname
    obtain ⟨intent, hread, hstands⟩ := hform.lookup hfield
    refine ⟨intent, _, hread, hstands, ?_⟩
    rintro _ (_ | _)
    exact hplural
  | all =>
    rw [← hmany]
    obtain ⟨intent, hread, hstands⟩ := hmanyForm.all hpair.isPlural_many
    refine ⟨intent, _, hread, hstands, ?_⟩
    rintro _ (_ | _)
    rfl
  | joined hname hassociation hne =>
    obtain ⟨form, rfl, hform, _⟩ := hnames hname
    obtain ⟨intent, hread, hstands⟩ := hform.joined hassociation hne
    refine ⟨intent, _, hread, hstands, ?_⟩
    rintro _ (_ | _)
    rfl
  | walk hname hresult hne =>
    obtain ⟨form, rfl, hform, _⟩ := hnames hname
    obtain ⟨intent, hread, hstands⟩ := hform.walk hresult hne
    exact ⟨intent, _, hread, hstands, nofun⟩

/-! ## Main statement -/

/-- Regular names resolve in the same way under every verb. The singular and the plural of such a name
are told apart and go into each other. In a store with a table of the plural name, and no other table
that has the name as its singular, every query for the name has a plan on this table: of one record
only in a lookup by the singular, of many in every other lookup and in every join. -/
theorem regular_names_resolve {words : List String} (h : Regular words) :
    let entity := "_".intercalate words
    let one := camelize entity
    let many := pluralize one
    (singularize many = one ∧ singularize one = one ∧ isPlural many = true ∧ isPlural one = false) ∧
    ∀ (store : Store) (engine : Engine), engine.settings.adapter = .ok store.adapter → engine.UpToDate →
      pluralize entity ∈ store.tables.names →
      (∀ table ∈ store.tables.names, singularize table = entity → table = pluralize entity) →
      ∀ identifier number, QueryFor entity identifier number →
        ∃ plan, (engine.compile identifier).1 = .ok (some plan) ∧ plan.table = pluralize entity ∧
          ∀ plural ∈ number, plan.isCollection = plural := by
  intro entity one many
  obtain ⟨oneWords, manyWords, hone, hmany, hpair, -, -⟩ := forms_of_regular h
  rw [hone, hmany] at hpair
  refine ⟨⟨hpair.singular_many, hpair.singular_one, hpair.isPlural_many, hpair.not_isPlural_one⟩, ?_⟩
  intro store engine hadapter hupToDate hmem honly identifier number hquery
  obtain ⟨intent, isCollection, hread, hstands, hnumber⟩ := hquery.standsOn h
  -- No other table has the entity as its singular, so the plural serves it.
  have hserved : store.tableFor? entity = some (pluralize entity) :=
    Store.tableFor?_of_only hmem h.namePair.singular_many honly
  have htable : Plan.tableFor store.adapter entity = .ok (pluralize entity) := by
    simp only [Plan.tableFor, Store.adapter, hserved]
  obtain ⟨plan, hplan, hplanTable, hcollection⟩ := hstands.plan?_eq hread hadapter htable
  refine ⟨plan, ?_, hplanTable, ?_⟩
  · rw [hupToDate.compile_result, hplan]
  · rw [hcollection]
    exact hnumber

/-- Posts of a blog, in a store with their authors. -/
def press : Store := ⟨[("authors", []), ("blog_posts", [])], []⟩

/-- The posts of a blog are found in a store with their authors, from one of them too. -/
theorem blogPosts_resolve :
    let engine := Engine.ofSettings (.on press)
    (∃ plan, (engine.compile "BlogPostByTitle").1 = .ok (some plan) ∧ plan.table = "blog_posts" ∧
      plan.isCollection = false) ∧
    ∃ plan, (engine.compile "AuthorsFromBlogPosts").1 = .ok (some plan) ∧ plan.table = "blog_posts" := by
  intro engine
  have hregular : Regular ["blog", "post"] := by
    refine ⟨by decide, ?_, by decide, ?_⟩
    · rintro word (_ | ⟨_, _ | ⟨_, hnil⟩⟩)
      · decide
      · decide
      · cases hnil
    · rintro last (_ | _)
      exact ⟨⟨'t', rfl, by decide⟩, by decide, by decide⟩
  have hmany : pluralize ("_".intercalate ["blog", "post"]) = "blog_posts" := by rfl
  have hstore : ∀ table ∈ press.tables.names,
      singularize table = "_".intercalate ["blog", "post"] → table = "blog_posts" := by decide
  have hcompiles := (regular_names_resolve hregular).2 press engine rfl (Engine.upToDate_ofSettings _)
  rw [hmany] at hcompiles
  have hcompiles := hcompiles (by decide) hstore
  have hlookup : QueryFor ("_".intercalate ["blog", "post"]) "BlogPostByTitle" (some false) :=
    .lookup .one ⟨["Title"], by decide, .of_notMem (by decide) (by decide) (by decide), rfl⟩
  have hwalk : QueryFor ("_".intercalate ["blog", "post"]) "AuthorsFromBlogPosts" none :=
    .walk .many ⟨["Authors"], by decide, .of_notMem (by decide) (by decide) (by decide), rfl⟩ (by decide)
  constructor
  · obtain ⟨plan, hplan, htable, hnumber⟩ := hcompiles _ _ hlookup
    exact ⟨plan, hplan, htable, hnumber false rfl⟩
  · obtain ⟨plan, hplan, htable, _⟩ := hcompiles _ _ hwalk
    exact ⟨plan, hplan, htable⟩

end NamedQuery
