/-
Decisions by explicit lists of vertices.

An allow list keeps the walk inside a set of vertices, a deny list keeps it
out of one, and an end list makes the paths that end in a set the results.
The start vertex is exempt from each unless the list asks for it.
-/
import WalkFilter.Decision
import WalkFilter.Graph.Element

namespace WalkFilter

/-- A set of vertices that the paths of a walk are checked against. -/
structure VertexList where
  vertices : SortedSet VertexId
  /-- the start vertex is checked too -/
  filterStart : Bool
deriving DecidableEq

namespace VertexList

/-- Is the end of a path of this length left unchecked? -/
def exempts (depth : Nat) (filterStart : Bool) : Bool := depth = 0 && !filterStart

/-- As an allow list: refuse every checked vertex outside the set. -/
def allow (l : VertexList) (depth : Nat) (v : VertexId) : Decision :=
  if exempts depth l.filterStart || v ∈ l.vertices then .includeAndContinue
  else .excludeAndPrune

/-- As a deny list: refuse every checked vertex in the set. -/
def deny (l : VertexList) (depth : Nat) (v : VertexId) : Decision :=
  if !exempts depth l.filterStart && v ∈ l.vertices then .excludeAndPrune
  else .includeAndContinue

end VertexList

/-- What a set of vertices says about the paths that end in it. -/
inductive EndPolicy where
  /-- they are results -/
  | includeEnds (vertices : SortedSet VertexId)
  /-- they are results, and the walk ends there -/
  | pruneAfter (vertices : SortedSet VertexId)
deriving DecidableEq

/-- The decision of a policy taken by itself. -/
def EndPolicy.decide (v : VertexId) : EndPolicy → Decision
  | includeEnds vertices => ⟨v ∈ vertices, true⟩
  | pruneAfter vertices => ⟨v ∈ vertices, v ∉ vertices⟩

/-- An end policy and a terminator policy, which decide together. -/
structure EndList where
  ends : Option EndPolicy
  terminators : Option EndPolicy
  /-- the start vertex may be a result -/
  filterStart : Bool
  /-- below this depth nothing is a result and nothing ends the walk -/
  minLevel : UInt64
deriving DecidableEq

namespace EndList

/-- The policies of a list of ends and a list of terminators; two empty lists give none. -/
def ofLists? (ends terminators : List VertexId) (filterStart : Bool) (minLevel : UInt64) :
    Option EndList :=
  if ends.isEmpty && terminators.isEmpty then none
  else some
    { ends := if ends.isEmpty then none else some (.includeEnds (.ofList ends))
      terminators := if terminators.isEmpty then none else some (.pruneAfter (.ofList terminators))
      filterStart, minLevel }

/-- Either policy makes a result; only the terminators end the walk. -/
def decide (l : EndList) (depth : Nat) (v : VertexId) : Decision :=
  if VertexList.exempts depth l.filterStart || depth < l.minLevel.toNat then .excludeAndContinue
  else
    { includes := l.ends.any (·.decide v |>.includes) || l.terminators.any (·.decide v |>.includes)
      continues := l.terminators.all (·.decide v |>.continues) }

end EndList

end WalkFilter
