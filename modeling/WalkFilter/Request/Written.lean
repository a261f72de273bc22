/-
Requests as JSON: a record whose fields may all be missing.

Main statement:
* `Request.ofJson?_toJson` — reading back what was written gives the request.
-/
import WalkFilter.Graph.Written
import WalkFilter.Request.Basic

namespace WalkFilter

def Uniqueness.ofName? (name : String) : Option Uniqueness :=
  Uniqueness.all.find? (·.name = name)

theorem Uniqueness.ofName?_name (u : Uniqueness) : ofName? u.name = some u := by
  cases u <;> decide

def Uniqueness.toJson (u : Uniqueness) : Json := .string u.name

/-- The fields of a request. -/
inductive RequestField where
  | tagFilter
  | edgeFilter
  | sequence
  | minLevel
  | maxLevel
  | limit
  | filterStart
  | beginAtStart
  | uniqueness
  | breadthFirst
  | optional
  | whitelist
  | blacklist
  | ends
  | terminators
deriving DecidableEq, Repr

namespace RequestField

/-- All fields, in order. -/
def all : List RequestField :=
  [tagFilter, edgeFilter, sequence, minLevel, maxLevel, limit, filterStart, beginAtStart,
   uniqueness, breadthFirst, optional, whitelist, blacklist, ends, terminators]

theorem mem_all (f : RequestField) : f ∈ all := by
  cases f <;> decide

/-- The key under which a field is written. -/
def key : RequestField → String
  | tagFilter => "labelFilter"
  | edgeFilter => "relationshipFilter"
  | sequence => "sequence"
  | minLevel => "minLevel"
  | maxLevel => "maxLevel"
  | limit => "limit"
  | filterStart => "filterStartNode"
  | beginAtStart => "beginSequenceAtStart"
  | uniqueness => "uniqueness"
  | breadthFirst => "bfs"
  | optional => "optional"
  | whitelist => "whitelistNodes"
  | blacklist => "blacklistNodes"
  | ends => "endNodes"
  | terminators => "terminatorNodes"

/-- The other keys under which a field is read. -/
def aliases : RequestField → List String
  | tagFilter => ["tagFilter"]
  | edgeFilter => ["edgeFilter"]
  | filterStart => ["filterStartVertex"]
  | whitelist => ["allowlistNodes", "whitelistVertices"]
  | blacklist => ["denylistNodes", "blacklistVertices"]
  | ends => ["endVertices"]
  | terminators => ["terminatorVertices"]
  | sequence | minLevel | maxLevel | limit | beginAtStart | uniqueness | breadthFirst
  | optional => []

/-- All keys under which a field is read. -/
def spellings (f : RequestField) : List String := f.key :: f.aliases

/-- The field that a key spells. -/
def ofKey? (key : String) : Option RequestField := all.find? (key ∈ ·.spellings)

theorem nodup_all : all.Nodup := by decide

theorem ofKey?_key (f : RequestField) : ofKey? f.key = some f := by
  cases f <;> decide

end RequestField

namespace Request

/-- The values of the fields.  Filters and bounds that are not set have none. -/
def slots (q : Request) : Json.Slots RequestField
  | .tagFilter => q.tagFilter.map .string
  | .edgeFilter => q.edgeFilter.map .string
  | .sequence => q.sequence.map .string
  | .minLevel => some (.ofWord q.minLevel)
  | .maxLevel => q.maxLevel.map .ofWord
  | .limit => q.limit.map .ofWord
  | .filterStart => some (.bool q.filterStart)
  | .beginAtStart => some (.bool q.beginAtStart)
  | .uniqueness => some q.uniqueness.toJson
  | .breadthFirst => some (.bool q.breadthFirst)
  | .optional => some (.bool q.optional)
  | .whitelist => some (.array (q.whitelist.map VertexId.toJson))
  | .blacklist => some (.array (q.blacklist.map VertexId.toJson))
  | .ends => some (.array (q.ends.map VertexId.toJson))
  | .terminators => some (.array (q.terminators.map VertexId.toJson))

/-- The request as an object of the fields that have a value. -/
def toJson (q : Request) : Json := .ofSlots RequestField.key RequestField.all q.slots

/-- The request of the given fields; a field that is not given has the value that it has in a
new request.  `isUnit` tells what stands beside the name of a choice in an object. -/
def ofSlots? (isUnit : Json → Bool) (slots : Json.Slots RequestField) : Option Request := do
  let fresh : Request := {}
  let text := Json.optional? Json.text?
  let word := Json.optional? Json.word?
  let vertices := Json.list? VertexId.ofJson?
  return {
    tagFilter := ← slots.withDefault? .tagFilter fresh.tagFilter text
    edgeFilter := ← slots.withDefault? .edgeFilter fresh.edgeFilter text
    sequence := ← slots.withDefault? .sequence fresh.sequence text
    minLevel := ← slots.withDefault? .minLevel fresh.minLevel Json.word?
    maxLevel := ← slots.withDefault? .maxLevel fresh.maxLevel word
    limit := ← slots.withDefault? .limit fresh.limit word
    filterStart := ← slots.withDefault? .filterStart fresh.filterStart Json.bool?
    beginAtStart := ← slots.withDefault? .beginAtStart fresh.beginAtStart Json.bool?
    uniqueness := ← slots.withDefault? .uniqueness fresh.uniqueness
      (Json.choice? isUnit Uniqueness.ofName?)
    breadthFirst := ← slots.withDefault? .breadthFirst fresh.breadthFirst Json.bool?
    optional := ← slots.withDefault? .optional fresh.optional Json.bool?
    whitelist := ← slots.withDefault? .whitelist fresh.whitelist vertices
    blacklist := ← slots.withDefault? .blacklist fresh.blacklist vertices
    ends := ← slots.withDefault? .ends fresh.ends vertices
    terminators := ← slots.withDefault? .terminators fresh.terminators vertices }

/-- The request that a record spells out. -/
def ofRecord? (isUnit : Json → Bool) (v : Json) : Option Request :=
  (v.slots? RequestField.ofKey? RequestField.all).bind (ofSlots? isUnit)

/-- The request that a JSON value spells out. -/
def ofJson? (v : Json) : Option Request := ofRecord? Json.isNull v

/-- The request that a JSON text spells out. -/
def ofJsonText (s : String) : Except RequestError Request :=
  match (Json.read? s).bind ofJson? with
  | some q => .ok q
  | none => .error .malformed

theorem list?_vertices (l : List VertexId) :
    Json.list? VertexId.ofJson? (.array (l.map VertexId.toJson)) = some l := by
  have h : ∀ v : VertexId, VertexId.ofJson? v.toJson = some v := by
    intro v
    simp [VertexId.ofJson?, VertexId.toJson]
  simp only [Json.list?]
  induction l with
  | nil => rfl
  | cons v rest ih => simp [List.mapM_cons, h, ih]

theorem withDefault?_optional {α : Type} {read : Json → Option α} {write : α → Json}
    {slots : Json.Slots RequestField} {f : RequestField} {o : Option α}
    (hslot : slots f = o.map write) (hread : ∀ a, read (write a) = some a)
    (hnull : ∀ a, write a ≠ .null) :
    slots.withDefault? f none (Json.optional? read) = some o := by
  cases o with
  | none => simp [Json.Slots.withDefault?, hslot]
  | some a =>
    simp only [Json.Slots.withDefault?, hslot, Option.map_some]
    cases hw : write a with
    | null => exact absurd hw (hnull a)
    | _ => rw [Json.optional?, ← hw, hread, Option.map_some]; simp

theorem ofSlots?_slots (isUnit : Json → Bool) (q : Request) :
    ofSlots? isUnit q.slots = some q := by
  have htext (f : RequestField) (o : Option String) (h : q.slots f = o.map .string) :
      q.slots.withDefault? f none (Json.optional? Json.text?) = some o :=
    withDefault?_optional h (fun _ => rfl) (by simp)
  have hword (f : RequestField) (o : Option UInt64) (h : q.slots f = o.map .ofWord) :
      q.slots.withDefault? f none (Json.optional? Json.word?) = some o :=
    withDefault?_optional h Json.word?_ofWord (by simp [Json.ofWord])
  have hmode : Json.choice? isUnit Uniqueness.ofName? q.uniqueness.toJson = some q.uniqueness := by
    simp [Json.choice?, Uniqueness.toJson, Uniqueness.ofName?_name]
  -- Each field reads back by itself.
  unfold ofSlots?
  simp only [htext .tagFilter q.tagFilter rfl, htext .edgeFilter q.edgeFilter rfl,
    htext .sequence q.sequence rfl, hword .maxLevel q.maxLevel rfl, hword .limit q.limit rfl]
  simp [Json.Slots.withDefault?, slots, hmode, list?_vertices, Json.bool?]

/-- Reading back what was written gives the request. -/
theorem ofJson?_toJson (q : Request) : ofJson? q.toJson = some q := by
  rw [ofJson?, ofRecord?, toJson,
    Json.slots?_ofSlots RequestField.ofKey?_key RequestField.nodup_all RequestField.mem_all]
  exact ofSlots?_slots Json.isNull q

end Request

end WalkFilter
