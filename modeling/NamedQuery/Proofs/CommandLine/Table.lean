import Mathlib.Algebra.GroupWithZero.Nat
import Mathlib.Data.List.Forall2
import NamedQuery.CommandLine.Commands
import NamedQuery.Proofs.Engine.Runs

/-! # Tables are aligned

Every line of a table is as long as every other one, in characters, and each column begins at one place
in all of them. The widths of columns count bytes, which are at least as many as characters; so every
text fits into its column and is shown whole (`tables_aligned`). -/

namespace NamedQuery.CommandLine

/-! ## Widths -/

theorem length_le_utf8ByteSize (text : String) : text.length ≤ text.utf8ByteSize := by
  have hchars : ∀ chars : List Char, chars.length ≤ (String.ofList chars).utf8ByteSize := by
    intro chars
    induction chars with
    | nil => exact Nat.zero_le _
    | cons c chars ih =>
      have hc := c.utf8Size_pos
      rw [String.ofList_cons, String.utf8ByteSize_append, String.utf8ByteSize_singleton,
        List.length_cons]
      omega
  have htext := hchars text.toList
  rwa [String.length_toList, String.ofList_toList] at htext

theorem name_le_columnWidth (entities : List Entity) (name : String) :
    name.length ≤ columnWidth entities name := by
  rw [columnWidth, List.foldl_max]
  exact Nat.le_trans (length_le_utf8ByteSize name) (Nat.le_max_left ..)

theorem cell_le_columnWidth {entities : List Entity} {entity : Entity} (h : entity ∈ entities)
    (name : String) : (cell entity name).length ≤ columnWidth entities name := by
  have hwidth : (cell entity name).utf8ByteSize ∈
      entities.map fun entity => (cell entity name).utf8ByteSize :=
    List.mem_map_of_mem (f := fun entity => (cell entity name).utf8ByteSize) h
  rw [columnWidth, List.foldl_max]
  calc (cell entity name).length
    _ ≤ (cell entity name).utf8ByteSize := length_le_utf8ByteSize _
    _ ≤ _ := List.le_max?_getD_of_mem hwidth
    _ ≤ _ := Nat.le_max_right ..

/-! ## Fields between bars -/

section Fields

variable {bar : List Char} {fields : List (List Char)}

theorem length_intercalate :
    (bar.intercalate fields).length =
      (fields.map List.length).sum + bar.length * (fields.length - 1) := by
  induction fields with
  | nil => rfl
  | cons field rest ih =>
    cases rest with
    | nil => simp
    | cons next rest =>
      rw [List.intercalate_cons_cons, List.length_append, List.length_append, ih]
      simp only [List.map_cons, List.sum_cons, List.length_cons, Nat.add_sub_cancel, Nat.mul_succ]
      omega

/-- Behind the fields before it and their bars stands a field, and a bar if another one follows. -/
theorem drop_intercalate {i : Nat} {field : List Char} (h : fields[i]? = some field) :
    ∃ rest, (bar.intercalate fields).drop
        ((fields.take i).map fun field => field.length + bar.length).sum = field ++ rest ∧
      (i + 1 < fields.length → bar <+: rest) := by
  induction fields generalizing i with
  | nil => cases h
  | cons first others ih =>
    cases others with
    | nil =>
      cases i with
      | zero =>
        cases h
        exact ⟨[], by simp, fun hmore => absurd hmore (by simp)⟩
      | succ i => cases h
    | cons next others =>
      rw [List.intercalate_cons_cons, List.append_assoc]
      cases i with
      | zero =>
        cases h
        exact ⟨_, rfl, fun _ => List.prefix_append ..⟩
      | succ i =>
        obtain ⟨rest, hdrop, hbar⟩ := ih (i := i) h
        refine ⟨rest, ?_, fun hmore => hbar (Nat.lt_of_succ_lt_succ hmore)⟩
        rw [List.take_succ_cons, List.map_cons, List.sum_cons, ← List.append_assoc,
          ← List.length_append, ← List.drop_drop, List.drop_left, hdrop]

end Fields

/-! ## Lines in columns -/

def barWidth : Nat := 3

/-- Where a column begins: behind the columns before it and their bars. -/
def columnStart (columns : List Column) (i : Nat) : Nat :=
  ((columns.take i).map fun column => column.width + barWidth).sum

/-- The width of all columns and of the bars between them. -/
def tableWidth (columns : List Column) : Nat :=
  (columns.map Column.width).sum + barWidth * (columns.length - 1)

/-- A line that shows a text in every column: where the column begins the whole text stands, and then
blanks up to the width of the column and a bar before the next one. -/
structure InColumns (columns : List Column) (bar : String) (content : Column → String)
    (line : String) : Prop where
  length_eq : line.length = tableWidth columns
  shown : ∀ i column, columns[i]? = some column → ∃ blanks rest,
    line.toList.drop (columnStart columns i) =
      (content column).toList ++ List.replicate blanks ' ' ++ rest ∧
    (content column).length + blanks = column.width ∧
    (i + 1 < columns.length → bar.toList <+: rest)

theorem inColumns_intercalate {columns : List Column} {bar : String} (hbar : bar.length = barWidth)
    {content field : Column → String}
    (hfield : ∀ column ∈ columns, ∃ blanks, (content column).length + blanks = column.width ∧
      (field column).toList = (content column).toList ++ List.replicate blanks ' ') :
    InColumns columns bar content (bar.intercalate (columns.map field)) := by
  have hwidth : ∀ column ∈ columns, (field column).toList.length = column.width := by
    intro column hcolumn
    obtain ⟨blanks, hblanks, htext⟩ := hfield column hcolumn
    rw [htext, List.length_append, List.length_replicate, String.length_toList, hblanks]
  have hline : (bar.intercalate (columns.map field)).toList =
      bar.toList.intercalate (columns.map fun column => (field column).toList) := by
    rw [String.toList_intercalate, List.map_map]
    rfl
  rw [← String.length_toList] at hbar
  constructor
  case length_eq =>
    have hwidths : (columns.map fun column => (field column).toList.length) = columns.map Column.width :=
      List.map_congr_left hwidth
    rw [← String.length_toList, hline, length_intercalate, List.map_map, List.length_map, hbar]
    exact congrArg (fun widths => widths.sum + barWidth * (columns.length - 1)) hwidths
  case shown =>
    intro i column hcolumn
    have hmem : column ∈ columns := List.mem_of_getElem? hcolumn
    obtain ⟨blanks, hblanks, htext⟩ := hfield column hmem
    have hget : (columns.map fun column => (field column).toList)[i]? = some (field column).toList := by
      rw [List.getElem?_map, hcolumn]
      rfl
    obtain ⟨rest, hdrop, hrest⟩ := @drop_intercalate bar.toList _ _ _ hget
    have hstart : (((columns.map fun column => (field column).toList).take i).map
        fun field => field.length + bar.toList.length).sum = columnStart columns i := by
      rw [← List.map_take, List.map_map, hbar, columnStart]
      refine congrArg List.sum (List.map_congr_left fun other hother => ?_)
      exact congrArg (· + barWidth) (hwidth other (List.mem_of_mem_take hother))
    rw [List.length_map] at hrest
    exact ⟨blanks, rest, by rw [hline, ← hstart, hdrop, htext], hblanks, hrest⟩

/-- Texts that are no longer than their columns are wide are shown whole. -/
theorem inColumns_tableLine {columns : List Column} {content : String → String}
    (h : ∀ column ∈ columns, (content column.name).length ≤ column.width) :
    InColumns columns " │ " (fun column => content column.name) (tableLine columns content) := by
  refine inColumns_intercalate rfl fun column hcolumn => ?_
  refine ⟨column.width - (content column.name).length, Nat.add_sub_of_le (h column hcolumn), ?_⟩
  rw [padded, String.toList_append, String.toList_ofList]

def Column.rule (column : Column) : String :=
  String.ofList (List.replicate column.width '─')

theorem inColumns_separatorLine (columns : List Column) :
    InColumns columns "─┼─" Column.rule (separatorLine columns) := by
  refine inColumns_intercalate rfl fun column _ => ⟨0, ?_, ?_⟩
  · rw [Nat.add_zero, Column.rule, String.length_ofList, List.length_replicate]
  · rw [List.replicate_zero, List.append_nil, Column.rule]

/-! ## Tables -/

theorem width_of_mem_columnsOf {entities : List Entity} {column : Column}
    (h : column ∈ columnsOf entities) : column.width = columnWidth entities column.name := by
  cases entities with
  | nil => cases h
  | cons first rest =>
    obtain ⟨name, _, rfl⟩ := List.mem_map.1 h
    rfl

/-- Lines that show an output as a table in columns: one column for each attribute of the first entity,
a header with the names, a rule, and a line for each entity with its cells. Below the table stand the type
of the output and the number of its entities. -/
def ShowsTable (output : Output) (lines : List String) : Prop :=
  ∃ columns header separator rows,
    lines = header :: separator :: rows ++
      ["", output.type.name ++ " " ++ toString output.entities.length ++ " row(s)"] ∧
    (∀ first ∈ output.entities.head?, columns.map Column.name = first.attributes.names) ∧
    InColumns columns " │ " Column.name header ∧
    InColumns columns "─┼─" Column.rule separator ∧
    List.Forall₂ (fun entity => InColumns columns " │ " fun column => cell entity column.name)
      output.entities rows

theorem showsTable_outputTable {output : Output} (h : output.entities ≠ []) :
    ShowsTable output (outputTable output) := by
  have hnames : ∀ column ∈ columnsOf output.entities, column.name.length ≤ column.width := by
    intro column hcolumn
    rw [width_of_mem_columnsOf hcolumn]
    exact name_le_columnWidth output.entities column.name
  have hcells : ∀ entity ∈ output.entities, ∀ column ∈ columnsOf output.entities,
      (cell entity column.name).length ≤ column.width := by
    intro entity hentity column hcolumn
    rw [width_of_mem_columnsOf hcolumn]
    exact cell_le_columnWidth hentity column.name
  have hlines : outputTable output = tableLines output.entities ++
      ["", output.type.name ++ " " ++ toString output.entities.length ++ " row(s)"] :=
    if_neg (by simpa using h)
  have hcolumns : ∀ first ∈ output.entities.head?,
      (columnsOf output.entities).map Column.name = first.attributes.names := by
    intro first hfirst
    obtain ⟨rest, hentities⟩ := List.head?_eq_some_iff.1 hfirst
    rw [hentities, columnsOf, List.map_map]
    exact List.map_id _
  exact ⟨_, _, _, _, hlines, hcolumns, @inColumns_tableLine _ id hnames, inColumns_separatorLine _,
    List.forall₂_map_right_iff.2
      (List.forall₂_same.2 fun entity hentity => inColumns_tableLine (hcells entity hentity))⟩

/-- Two sheep with different attributes. The name of one has a letter of two bytes. -/
def herd : Store where
  tables := [
    ("sheep", [
      [("name", .string "Chloë"), ("tags", .array [.string "ewe"])],
      [("mother", .string "Chloë"), ("name", .string "Dolly")]])]
  relations := []

def flock : Output := .collection ⟨.plain "GetSheep", herd.rows "sheep"⟩

example : tableLines flock.entities = [
    "name   │ tags   ",
    "───────┼────────",
    "Chloë  │ [\"ewe\"]",
    "Dolly  │ NULL   "] := by
  decide

theorem runQuery_allSheep :
    (Except.ok (.on herd) : Except Problem Settings).bind (runQuery · ⟨"AllSheep", [], []⟩ true) =
      .ok (some flock) := by
  have htrimmed : Text.trimmed "AllSheep" = "AllSheep" := rfl
  have hread : Identifier.read "AllSheep" = .query ⟨"AllSheep", "Sheep", .all, none⟩ := by decide
  have hplan : Engine.plan? (Engine.ofSettings (.on herd)).settings "AllSheep" =
      .ok (some ⟨"AllSheep", .all, .lookup none true, true, "sheep", "sheep"⟩) := by
    rw [Engine.plan?, hread]
    rfl
  rw [Except.bind, runQuery, Engine.compile]
  simp only [htrimmed, hplan]
  rfl

end NamedQuery.CommandLine
