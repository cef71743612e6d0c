import NamedQuery.Adapter.Basic
import NamedQuery.Inflection.Number

/-! # Entities

What queries return: an entity is the attributes of one record under a type, and a collection is a
list of records that become entities when they are looked at. A type may shape the attributes of its
entities. Entities are equal when their attributes are, whatever their types. -/

namespace NamedQuery

/-! ## Types -/

/-- What a shape makes of a record: the attributes of the entity, and the name of another type if
it is to have one. -/
structure Shaped where
  attributes : Row
  renamed : Option String

/-- A type of entities. Its shape sees the name of the type and the attributes of a record. -/
structure EntityType where
  name : String
  shape : Option (String → Row → Shaped)

/-- A type that leaves attributes as they are. -/
def EntityType.plain (name : String) : EntityType := ⟨name, none⟩

/-- The type of the elements of a collection type: its name is the singular, its shape the same. -/
def EntityType.singular (type : EntityType) : EntityType :=
  { type with name := Inflection.singularize type.name }

structure Entity where
  type : EntityType
  attributes : Row

def EntityType.entity (type : EntityType) (row : Row) : Entity :=
  match type.shape with
  | none => ⟨type, row⟩
  | some shape =>
    let shaped := shape type.name row
    match shaped.renamed with
    | none => ⟨type, shaped.attributes⟩
    | some name => ⟨.plain name, shaped.attributes⟩

/-! ## Entities -/

namespace Entity

def get? (entity : Entity) (name : String) : Option Json :=
  entity.attributes.get? name

/-- An attribute; one that is missing reads as null. -/
def getOrNull (entity : Entity) (name : String) : Json :=
  (entity.get? name).getD .null

def contains (entity : Entity) (name : String) : Bool :=
  entity.attributes.contains name

def value (entity : Entity) : Json :=
  .object entity.attributes

def same (x y : Entity) : Bool :=
  Row.same x.attributes y.attributes

def integers? (entity : Entity) : Option (Fields Int) :=
  entity.attributes.mapM fun (name, value) =>
    match value with
    | .number n => n.signed?.map (name, ·)
    | _ => none

end Entity

/-! ## Collections -/

structure EntityCollection where
  type : EntityType
  rows : List Row

namespace EntityCollection

def elementType (collection : EntityCollection) : EntityType :=
  collection.type.singular

def size (collection : EntityCollection) : Nat :=
  collection.rows.length

def get? (collection : EntityCollection) (index : Nat) : Option Entity :=
  collection.rows[index]?.map collection.elementType.entity

def first? (collection : EntityCollection) : Option Entity :=
  collection.rows.head?.map collection.elementType.entity

def last? (collection : EntityCollection) : Option Entity :=
  collection.rows.getLast?.map collection.elementType.entity

def toList (collection : EntityCollection) : List Entity :=
  collection.rows.map collection.elementType.entity

def value (collection : EntityCollection) : Json :=
  .array (collection.toList.map Entity.value)

def same (x y : EntityCollection) : Bool :=
  Row.sameAll x.rows y.rows

end EntityCollection

/-! ## Outputs -/

inductive Output where
  | single (entity : Entity)
  | collection (collection : EntityCollection)

namespace Output

def isCollection : Output → Bool
  | single _ => false
  | collection _ => true

def single? : Output → Option Entity
  | single entity => some entity
  | collection _ => none

def collection? : Output → Option EntityCollection
  | single _ => none
  | collection c => some c

def entities : Output → List Entity
  | single entity => [entity]
  | collection c => c.toList

def type : Output → EntityType
  | single entity => entity.type
  | collection c => c.type

def value : Output → Json
  | single entity => entity.value
  | collection c => c.value

def same : Output → Output → Bool
  | single x, single y => x.same y
  | collection x, collection y => x.same y
  | _, _ => false

end Output

end NamedQuery
