import NamedQuery.Proofs.Fields
import NamedQuery.Proofs.Json.Number
import NamedQuery.Proofs.Json.Reading

/-! # Texts of values read back

The compact text of a value is a document of the same shape (`ofText?_chars`), and this document
has the value as its value (`value?_document`), if the value is a map wherever it is an object
(`Canonical`), does not nest too deep, and all its numbers read back. Values that have been read are
maps already (`canonical_of_value?`). -/

namespace NamedQuery.Json

open Document (State)

/-! ## Parts -/

/-- A value stands somewhere in a value, or is this value. -/
inductive Within (part : Json) : Json → Prop where
  | itself : Within part part
  | item {x : Json} {items : List Json} : x ∈ items → Within part x → Within part (.array items)
  | field {entry : String × Json} {fields : Fields Json} :
      entry ∈ fields → Within part entry.2 → Within part (.object fields)

theorem within_array_iff {part : Json} {items : List Json} :
    Within part (.array items) ↔ part = .array items ∨ ∃ x ∈ items, Within part x := by
  constructor
  · rintro (_ | ⟨hx, h⟩)
    · exact .inl rfl
    · exact .inr ⟨_, hx, h⟩
  · rintro (rfl | ⟨x, hx, h⟩)
    · exact .itself
    · exact .item hx h

theorem within_object_iff {part : Json} {fields : Fields Json} :
    Within part (.object fields) ↔
      part = .object fields ∨ ∃ entry ∈ fields, Within part entry.2 := by
  constructor
  · rintro (_ | _ | ⟨hentry, h⟩)
    · exact .inl rfl
    · exact .inr ⟨_, hentry, h⟩
  · rintro (rfl | ⟨entry, hentry, h⟩)
    · exact .itself
    · exact .field hentry h

/-- All objects in a value are maps: their names ascend. -/
def Canonical (x : Json) : Prop :=
  ∀ fields : Fields Json, Within (.object fields) x → fields.Sorted

mutual
/-- How deep arrays and objects nest in a value. -/
def depth : Json → Nat
  | array items => itemsDepth items + 1
  | object fields => fieldsDepth fields + 1
  | _ => 0
def itemsDepth : List Json → Nat
  | [] => 0
  | x :: xs => max x.depth (itemsDepth xs)
def fieldsDepth : List (String × Json) → Nat
  | [] => 0
  | (_, x) :: xs => max x.depth (fieldsDepth xs)
end

theorem itemsDepth_le_iff {items : List Json} {n : Nat} :
    itemsDepth items ≤ n ↔ ∀ x ∈ items, x.depth ≤ n := by
  induction items with
  | nil => simp [itemsDepth]
  | cons x xs ih => rw [itemsDepth, Nat.max_le, ih, List.forall_mem_cons]

theorem fieldsDepth_le_iff {fields : Fields Json} {n : Nat} :
    fieldsDepth fields ≤ n ↔ ∀ entry ∈ fields, entry.2.depth ≤ n := by
  induction fields with
  | nil => simp [fieldsDepth]
  | cons entry fields ih => rw [fieldsDepth, Nat.max_le, ih, List.forall_mem_cons]

/-- What holds of a value if it holds of its items and the values of its fields, holds of all. -/
theorem of_parts {motive : Json → Prop} (null : motive .null) (bool : ∀ b, motive (.bool b))
    (number : ∀ n, motive (.number n)) (string : ∀ s, motive (.string s))
    (array : ∀ items : List Json, (∀ x ∈ items, motive x) → motive (.array items))
    (object : ∀ fields : Fields Json, (∀ entry ∈ fields, motive entry.2) → motive (.object fields))
    (x : Json) : motive x :=
  @Json.rec motive (fun items => ∀ x ∈ items, motive x)
    (fun fields => ∀ entry ∈ fields, motive entry.2) (fun entry => motive entry.2)
    null bool number string array object
    (fun _ h => absurd h List.not_mem_nil) (fun _ _ hx hxs => List.forall_mem_cons.2 ⟨hx, hxs⟩)
    (fun _ h => absurd h List.not_mem_nil) (fun _ _ hx hxs => List.forall_mem_cons.2 ⟨hx, hxs⟩)
    (fun _ _ hx => hx) x

/-! ## The document of a text -/

mutual
/-- The document that the text of a value is. -/
def document : Json → Document
  | null => .null
  | bool b => .bool b
  | number n => (Document.ofText? n.text.toList).getD .null
  | string s => .string (some s)
  | array items => .array (documentItems items)
  | object fields => .object (documentEntries fields)
def documentItems : List Json → List Document
  | [] => []
  | x :: xs => x.document :: documentItems xs
def documentEntries : List (String × Json) → List (Option String × Document)
  | [] => []
  | (k, x) :: xs => (some k, x.document) :: documentEntries xs
end

@[simp] theorem documentItems_eq_map (items : List Json) :
    documentItems items = items.map document := by
  induction items with
  | nil => rfl
  | cons x xs ih => rw [documentItems, ih, List.map_cons]

@[simp] theorem documentEntries_eq_map (fields : Fields Json) :
    documentEntries fields = fields.map fun (k, x) => (some k, x.document) := by
  induction fields with
  | nil => rfl
  | cons entry fields ih => rw [documentEntries, ih, List.map_cons]

theorem breaks_moreItems (items : List Json) : Breaks (moreItems items) := by
  cases items <;> rfl

theorem breaks_moreFields (fields : Fields Json) : Breaks (moreFields fields) := by
  cases fields <;> rfl

theorem read_moreItems {items : List Json}
    (h : ∀ x ∈ items, Document.ofText? x.chars = some x.document) (done : List Document) :
    State.read (.afterItem done []) (moreItems items) =
      some (.complete (.array (done.reverse ++ items.map document))) := by
  induction items generalizing done with
  | nil =>
    rw [moreItems, State.read_mark (by rfl), List.map_nil, List.append_nil]
    rfl
  | cons x xs ih =>
    obtain ⟨hx, hxs⟩ := List.forall_mem_cons.1 h
    rw [moreItems, List.cons_append, State.read_mark (by rfl), State.step, Option.bind_some,
      State.read_document hx (breaks_moreItems xs), State.place, ih hxs, List.reverse_cons,
      List.append_assoc, List.map_cons, List.singleton_append]

theorem read_entry {x : Json} (h : Document.ofText? x.chars = some x.document) {rest : List Char}
    (hrest : Breaks rest) (entries : List (Option String × Document)) (name : Option String) :
    State.read (.colon entries name []) (':' :: (x.chars ++ rest)) =
      State.read (.afterEntry ((name, x.document) :: entries) []) rest := by
  rw [State.read_mark (by rfl), State.step, Option.bind_some, State.read_document h hrest,
    State.place]

theorem read_moreFields {fields : Fields Json}
    (h : ∀ entry ∈ fields, Document.ofText? entry.2.chars = some entry.2.document)
    (done : List (Option String × Document)) :
    State.read (.afterEntry done []) (moreFields fields) =
      some (.complete (.object (done.reverse ++ fields.map fun (k, x) => (some k, x.document)))) := by
  induction fields generalizing done with
  | nil =>
    rw [moreFields, State.read_mark (by rfl), List.map_nil, List.append_nil]
    rfl
  | cons entry fields ih =>
    obtain ⟨k, x⟩ := entry
    obtain ⟨hx, hfields⟩ := List.forall_mem_cons.1 h
    rw [moreFields, List.append_assoc, List.cons_append, List.cons_append,
      State.read_mark (by rfl), State.step, Option.bind_some,
      State.read_quoted, State.step, Option.bind_some, read_entry hx (breaks_moreFields fields),
      ih hfields, List.reverse_cons, List.append_assoc, List.map_cons, List.singleton_append]

/-- The compact text of a value is its document. -/
theorem ofText?_chars (x : Json) (h : ∀ n, Within (.number n) x → n.ReadsBack) :
    Document.ofText? x.chars = some x.document := by
  induction x using of_parts with
  | null => rfl
  | bool b => cases b <;> rfl
  | number n =>
    obtain ⟨literal, hliteral, _⟩ := Number.readsBack_iff.1 (h n .itself)
    rw [chars, document, hliteral, Option.getD_some]
  | string s =>
    rw [Document.ofText?_eq_some_iff, chars, ← List.append_nil (quoted s), State.read_quoted]
    rfl
  -- After the first item or field, which has no comma before it, come those that have one.
  | array items ih =>
    have hitems : ∀ x ∈ items, Document.ofText? x.chars = some x.document :=
      fun x hx => ih x hx fun n hn => h n (.item hx hn)
    rw [Document.ofText?_eq_some_iff, document, documentItems_eq_map]
    cases items with
    | nil => rfl
    | cons x xs =>
      obtain ⟨hx, hxs⟩ := List.forall_mem_cons.1 hitems
      rw [chars, List.cons_append, State.read_mark (by rfl), State.step, State.begin,
        Option.bind_some, State.read_firstItem hx (breaks_moreItems xs), State.place, read_moreItems hxs]
      rfl
  | object fields ih =>
    have hfields : ∀ entry ∈ fields, Document.ofText? entry.2.chars = some entry.2.document :=
      fun entry hentry => ih entry hentry fun n hn => h n (.field hentry hn)
    rw [Document.ofText?_eq_some_iff, document, documentEntries_eq_map]
    cases fields with
    | nil => rfl
    | cons entry fields =>
      obtain ⟨k, x⟩ := entry
      obtain ⟨hx, hfields⟩ := List.forall_mem_cons.1 hfields
      rw [chars, List.append_assoc, List.cons_append, List.cons_append,
        State.read_mark (by rfl), State.step, State.begin, Option.bind_some,
        State.read_quoted, State.step, Option.bind_some,
        read_entry hx (breaks_moreFields fields), read_moreFields hfields]
      rfl

/-! ## The value of the document -/

theorem items?_map_document {items : List Json} {n : Nat}
    (h : ∀ x ∈ items, x.document.value? n = some x) :
    Document.items? n (items.map document) = some items := by
  induction items with
  | nil => rfl
  | cons x xs ih =>
    obtain ⟨hx, hxs⟩ := List.forall_mem_cons.1 h
    simp [Document.items?, hx, ih hxs]

theorem entries?_map_document {fields : Fields Json} {n : Nat}
    (h : ∀ entry ∈ fields, entry.2.document.value? n = some entry.2) :
    Document.entries? n (fields.map fun (k, x) => (some k, x.document)) = some fields := by
  induction fields with
  | nil => rfl
  | cons entry fields ih =>
    obtain ⟨hx, hfields⟩ := List.forall_mem_cons.1 h
    simp [Document.entries?, hx, ih hfields]

theorem value?_document (x : Json) {n : Nat} (hdepth : x.depth ≤ n) (hcanonical : x.Canonical)
    (hnumbers : ∀ n, Within (.number n) x → n.ReadsBack) : x.document.value? n = some x := by
  induction x using of_parts generalizing n with
  | null | bool | string => rfl
  | number m =>
    obtain ⟨literal, hliteral, hvalue⟩ := Number.readsBack_iff.1 (hnumbers m .itself)
    rw [document, hliteral, Option.getD_some, Document.value?, hvalue, Option.map_some]
  | array items ih =>
    cases n with
    | zero => cases hdepth
    | succ n =>
      have hitems : ∀ x ∈ items, x.document.value? n = some x := fun x hx =>
        ih x hx (itemsDepth_le_iff.1 (Nat.le_of_succ_le_succ hdepth) x hx)
          (fun fields hfields => hcanonical fields (.item hx hfields))
          fun m hm => hnumbers m (.item hx hm)
      rw [document, documentItems_eq_map, Document.value?, items?_map_document hitems,
        Option.map_some]
  | object fields ih =>
    cases n with
    | zero => cases hdepth
    | succ n =>
      have hfields : ∀ entry ∈ fields, entry.2.document.value? n = some entry.2 :=
        fun entry hentry =>
          ih entry hentry (fieldsDepth_le_iff.1 (Nat.le_of_succ_le_succ hdepth) entry hentry)
            (fun inner hinner => hcanonical inner (.field hentry hinner))
            fun m hm => hnumbers m (.field hentry hm)
      -- Setting the fields one after another changes nothing, since their names ascend.
      rw [document, documentEntries_eq_map, Document.value?, entries?_map_document hfields,
        Option.map_some, Fields.ofList_of_sorted (hcanonical fields .itself)]

theorem readsBack_of_floats {x : Json}
    (h : ∀ f, Within (.number (.float f)) x → (Number.float f).ReadsBack) (n : Number)
    (hn : Within (.number n) x) : n.ReadsBack := by
  cases n with
  | integer n hword => exact Number.readsBack_integer n hword
  | float f => exact h f hn

/-- The compact text of a value is read as this value. -/
theorem ofText?_text {x : Json} (hcanonical : x.Canonical) (hdepth : x.depth ≤ Document.maxDepth)
    (hfloats : ∀ f, Within (.number (.float f)) x → (Number.float f).ReadsBack) :
    ofText? x.text = some x := by
  have hnumbers := readsBack_of_floats hfloats
  rw [ofText?, text, String.toList_ofList, ofText?_chars x hnumbers]
  exact value?_document x hdepth hcanonical hnumbers

/-! ## Values that have been read -/

theorem canonical_of_leaf {x : Json} (harray : x.array? = none) (hobject : x.object? = none) :
    x.Canonical := by
  intro fields hfields
  cases hfields with
  | itself => cases hobject
  | item => cases harray
  | field => cases hobject

theorem canonical_array {items : List Json} (h : ∀ x ∈ items, x.Canonical) :
    (Json.array items).Canonical := by
  intro fields hfields
  obtain heq | ⟨x, hx, hfields⟩ := within_array_iff.1 hfields
  · cases heq
  · exact h x hx fields hfields

theorem canonical_object {fields : Fields Json} (hsorted : fields.Sorted)
    (h : ∀ entry ∈ fields, entry.2.Canonical) : (Json.object fields).Canonical := by
  intro inner hinner
  obtain heq | ⟨entry, hentry, hinner⟩ := within_object_iff.1 hinner
  · cases heq
    exact hsorted
  · exact h entry hentry inner hinner

theorem canonical_object_of_leaves {fields : Fields Json} (hsorted : fields.Sorted)
    (h : ∀ entry ∈ fields, entry.2.array? = none ∧ entry.2.object? = none) :
    (Json.object fields).Canonical :=
  canonical_object hsorted fun entry hentry => canonical_of_leaf (h entry hentry).1 (h entry hentry).2

mutual
theorem canonical_of_value? : ∀ (document : Document) {n : Nat} {x : Json},
    document.value? n = some x → x.Canonical
  | .null, n, x, h => by
    cases h
    exact canonical_of_leaf rfl rfl
  | .bool b, n, x, h => by
    cases h
    exact canonical_of_leaf rfl rfl
  | .number literal, n, x, h => by
    obtain ⟨m, _, rfl⟩ := Option.map_eq_some_iff.1 h
    exact canonical_of_leaf rfl rfl
  | .string text, n, x, h => by
    obtain ⟨s, _, rfl⟩ := Option.map_eq_some_iff.1 h
    exact canonical_of_leaf rfl rfl
  | .array items, 0, x, h => by cases h
  | .array items, n + 1, x, h => by
    obtain ⟨xs, hxs, rfl⟩ := Option.map_eq_some_iff.1 h
    exact canonical_array (canonical_of_items? items hxs)
  | .object entries, 0, x, h => by cases h
  | .object entries, n + 1, x, h => by
    obtain ⟨fields, hfields, rfl⟩ := Option.map_eq_some_iff.1 h
    have hentries := canonical_of_entries? entries hfields
    exact canonical_object (Fields.sorted_ofList fields) fun entry hentry =>
      hentries entry (Fields.mem_of_mem_ofList hentry)
theorem canonical_of_items? : ∀ (items : List Document) {n : Nat} {xs : List Json},
    Document.items? n items = some xs → ∀ x ∈ xs, x.Canonical
  | [], n, xs, h => by
    cases h
    exact fun _ hx => absurd hx List.not_mem_nil
  | item :: items, n, xs, h => by
    obtain ⟨value, hvalue, h⟩ := Option.bind_eq_some_iff.1 h
    obtain ⟨values, hvalues, h⟩ := Option.bind_eq_some_iff.1 h
    cases h
    exact List.forall_mem_cons.2 ⟨canonical_of_value? item hvalue, canonical_of_items? items hvalues⟩
theorem canonical_of_entries? : ∀ (entries : List (Option String × Document)) {n : Nat}
    {fields : Fields Json}, Document.entries? n entries = some fields →
      ∀ entry ∈ fields, entry.2.Canonical
  | [], n, fields, h => by
    cases h
    exact fun _ hentry => absurd hentry List.not_mem_nil
  | (name?, item) :: entries, n, fields, h => by
    obtain ⟨name, _, h⟩ := Option.bind_eq_some_iff.1 h
    obtain ⟨value, hvalue, h⟩ := Option.bind_eq_some_iff.1 h
    obtain ⟨values, hvalues, h⟩ := Option.bind_eq_some_iff.1 h
    cases h
    exact List.forall_mem_cons.2
      ⟨canonical_of_value? item hvalue, canonical_of_entries? entries hvalues⟩
end

end NamedQuery.Json
