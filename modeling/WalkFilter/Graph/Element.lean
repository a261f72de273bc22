/-
The elements of a tagged graph: vertices that carry sets of tags, and typed,
directed edges between them.  Both are named by 64-bit numbers.
-/
import WalkFilter.SortedSet

namespace WalkFilter

/-- The identity of a vertex. -/
structure VertexId where
  val : UInt64
deriving DecidableEq, Repr

/-- The identity of an edge. -/
structure EdgeId where
  val : UInt64
deriving DecidableEq, Repr

/-- Vertices are ordered by number. -/
instance : Ord VertexId := ⟨fun a b => compare a.val b.val⟩

instance : Std.TransOrd VertexId where
  eq_swap {a b} := @Std.OrientedCmp.eq_swap UInt64 compare _ a.val b.val
  isLE_trans {a b c} := @Std.TransCmp.isLE_trans UInt64 compare _ a.val b.val c.val

instance : Std.LawfulEqOrd VertexId where
  compare_self {a} := @Std.ReflCmp.compare_self UInt64 compare _ a.val
  eq_of_compare {a b} h := by
    have := @Std.LawfulEqCmp.eq_of_compare UInt64 compare _ a.val b.val h
    cases a; cases b; cases this; rfl

/-- The tags of a vertex, or the members of a compound requirement. -/
abbrev TagSet := SortedSet String

/-- A vertex with its tags. -/
structure Vertex where
  id : VertexId
  tags : TagSet
deriving DecidableEq

/-- A typed edge from its source to its target. -/
structure Edge where
  id : EdgeId
  edgeType : String
  source : VertexId
  target : VertexId
deriving DecidableEq, Repr

/-- The end of the edge opposite to `v`, if `v` is one of its ends.  A loop leads back. -/
def Edge.other (e : Edge) (v : VertexId) : Option VertexId :=
  if e.source = v then some e.target
  else if e.target = v then some e.source
  else none

/-- Which edges to follow, seen from the vertex where the walk stands. -/
inductive Direction where
  | incoming
  | outgoing
  | both
deriving DecidableEq, Repr

namespace Direction

/-- Does the edge leave or enter `v` as the direction asks? -/
def admits (d : Direction) (e : Edge) (v : VertexId) : Bool :=
  match d with
  | outgoing => e.source = v
  | incoming => e.target = v
  | both => e.source = v || e.target = v

/-- The written name of a direction. -/
def name : Direction → String
  | incoming => "incoming"
  | outgoing => "outgoing"
  | both => "both"

/-- All directions. -/
def all : List Direction := [incoming, outgoing, both]

end Direction

end WalkFilter
