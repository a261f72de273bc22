/-
Vertices, edges, directions and decisions as JSON.

A vertex and an edge are records all of whose fields must be given.
-/
import WalkFilter.Decision
import WalkFilter.Graph.Element
import WalkFilter.Json.Reader
import WalkFilter.Json.Record

namespace WalkFilter

/-- A choice by name: the name as a string, or as the only key of an object whose value
`isUnit`. -/
def Json.choice? {α : Type} (isUnit : Json → Bool) (ofName? : String → Option α) :
    Json → Option α
  | .string name => ofName? name
  | .object [(name, v)] => if isUnit v then ofName? name else none
  | _ => none

/-- In JSON null stands beside the name of a choice. -/
def Json.isNull : Json → Bool
  | .null => true
  | _ => false

def VertexId.toJson (v : VertexId) : Json := .ofWord v.val
def VertexId.ofJson? (v : Json) : Option VertexId := v.word?.map VertexId.mk

def EdgeId.toJson (e : EdgeId) : Json := .ofWord e.val
def EdgeId.ofJson? (v : Json) : Option EdgeId := v.word?.map EdgeId.mk

/-- The fields of a vertex. -/
inductive VertexField where
  | id
  | tags
deriving DecidableEq

namespace VertexField

/-- All fields, in order. -/
def all : List VertexField := [id, tags]

/-- The field that a key spells. -/
def ofKey? : String → Option VertexField
  | "id" => some id
  | "tags" => some tags
  | _ => none

end VertexField

/-- A vertex with its tags in ascending order. -/
def Vertex.toJson (v : Vertex) : Json :=
  .object [("id", v.id.toJson), ("tags", .array (v.tags.toList.map .string))]

def Vertex.ofJson? (v : Json) : Option Vertex := do
  let slots ← v.slots? VertexField.ofKey? VertexField.all
  let id ← slots.required? .id VertexId.ofJson?
  let tags ← slots.required? .tags (Json.list? Json.text?)
  return ⟨id, .ofList tags⟩

/-- The fields of an edge. -/
inductive EdgeField where
  | id
  | edgeType
  | source
  | target
deriving DecidableEq

namespace EdgeField

/-- All fields, in order. -/
def all : List EdgeField := [id, edgeType, source, target]

/-- The field that a key spells. -/
def ofKey? : String → Option EdgeField
  | "id" => some id
  | "edge_type" => some edgeType
  | "from" => some source
  | "to" => some target
  | _ => none

end EdgeField

def Edge.toJson (e : Edge) : Json :=
  .object [("id", e.id.toJson), ("edge_type", .string e.edgeType), ("from", e.source.toJson),
    ("to", e.target.toJson)]

def Edge.ofJson? (v : Json) : Option Edge := do
  let slots ← v.slots? EdgeField.ofKey? EdgeField.all
  let id ← slots.required? .id EdgeId.ofJson?
  let edgeType ← slots.required? .edgeType Json.text?
  let source ← slots.required? .source VertexId.ofJson?
  let target ← slots.required? .target VertexId.ofJson?
  return ⟨id, edgeType, source, target⟩

def Direction.ofName? (name : String) : Option Direction := Direction.all.find? (·.name = name)

def Direction.toJson (d : Direction) : Json := .string d.name
def Direction.ofJson? (v : Json) : Option Direction := v.choice? Json.isNull Direction.ofName?

def Decision.ofName? (name : String) : Option Decision := Decision.names.lookup name

def Decision.toJson (d : Decision) : Json := .string d.name
def Decision.ofJson? (v : Json) : Option Decision := v.choice? Json.isNull Decision.ofName?

end WalkFilter
