/-
Traversal requests: filters, flags, bounds and lists of vertices.
-/
import WalkFilter.Graph.Element

namespace WalkFilter

/-- Which repetitions a walk forbids. -/
inductive Uniqueness where
  | nodeGlobal
  | nodePath
  | nodeRecent
  | nodeLevel
  | relationshipGlobal
  | relationshipPath
  | relationshipRecent
  | relationshipLevel
  | none
deriving DecidableEq, Repr

namespace Uniqueness

/-- The name in requests. -/
def name : Uniqueness → String
  | nodeGlobal => "NODE_GLOBAL"
  | nodePath => "NODE_PATH"
  | nodeRecent => "NODE_RECENT"
  | nodeLevel => "NODE_LEVEL"
  | relationshipGlobal => "RELATIONSHIP_GLOBAL"
  | relationshipPath => "RELATIONSHIP_PATH"
  | relationshipRecent => "RELATIONSHIP_RECENT"
  | relationshipLevel => "RELATIONSHIP_LEVEL"
  | none => "NONE"

/-- The name in reports for people. -/
def title : Uniqueness → String
  | nodeGlobal => "NodeGlobal"
  | nodePath => "NodePath"
  | nodeRecent => "NodeRecent"
  | nodeLevel => "NodeLevel"
  | relationshipGlobal => "RelationshipGlobal"
  | relationshipPath => "RelationshipPath"
  | relationshipRecent => "RelationshipRecent"
  | relationshipLevel => "RelationshipLevel"
  | none => "None"

/-- All modes. -/
def all : List Uniqueness :=
  [nodeGlobal, nodePath, nodeRecent, nodeLevel, relationshipGlobal, relationshipPath,
   relationshipRecent, relationshipLevel, none]

end Uniqueness

/-- A request to walk a graph. -/
structure Request where
  /-- the tag filter, a rule for each depth -/
  tagFilter : Option String := none
  /-- the edge filter, a position for each depth -/
  edgeFilter : Option String := none
  /-- tag rules and edge positions in turn; it overrides the two filters -/
  sequence : Option String := none
  /-- the least length of a result -/
  minLevel : UInt64 := 0
  /-- the greatest length of a path -/
  maxLevel : Option UInt64 := none
  /-- the walk ends once it has this many results -/
  limit : Option UInt64 := none
  /-- the start vertex is filtered like any other -/
  filterStart : Bool := false
  /-- the filters begin on the start vertex, otherwise on the first hop -/
  beginAtStart : Bool := true
  uniqueness : Uniqueness := .relationshipPath
  breadthFirst : Bool := true
  optional : Bool := false
  /-- the vertices that the walk keeps to, if any are listed -/
  whitelist : List VertexId := []
  /-- the vertices that the walk keeps away from -/
  blacklist : List VertexId := []
  /-- the vertices that make a path a result, if any are listed -/
  ends : List VertexId := []
  /-- the vertices that make a path a result and end the walk there -/
  terminators : List VertexId := []
deriving DecidableEq

/-- Why a request is refused. -/
inductive RequestError where
  /-- the greatest length is below the least -/
  | maxBelowMin (maxLevel minLevel : UInt64)
  /-- the least length of a subgraph walk is above 1 -/
  | subgraphMinLevel (minLevel : UInt64)
  /-- the text is no request -/
  | malformed
  /-- there is no such text file -/
  | unreadable
deriving DecidableEq, Repr

/-- The words for a refusal. -/
def RequestError.message : RequestError → String
  | maxBelowMin maxLevel minLevel =>
    "Invalid traversal request: maxLevel " ++ toString maxLevel.toNat ++ " is below minLevel "
      ++ toString minLevel.toNat
  | subgraphMinLevel minLevel =>
    "Invalid traversal request: minLevel can only be 0 or 1 for subgraph traversal, got "
      ++ toString minLevel.toNat
  | malformed => "The request is not well formed"
  | unreadable => "The request file cannot be read"

namespace Request

/-- A request must leave room between its bounds. -/
def validate (q : Request) : Except RequestError Unit :=
  match q.maxLevel with
  | some m => if m < q.minLevel then .error (.maxBelowMin m q.minLevel) else .ok ()
  | none => .ok ()

/-- The request as one for a subgraph, in which every vertex is reached at most once. -/
def forSubgraph (q : Request) : Except RequestError Request :=
  if 1 < q.minLevel then .error (.subgraphMinLevel q.minLevel)
  else .ok { q with uniqueness := .nodeGlobal }

theorem validate_eq_ok_iff {q : Request} :
    q.validate = .ok () ↔ ∀ m, q.maxLevel = some m → q.minLevel ≤ m := by
  unfold validate
  cases h : q.maxLevel with
  | none => simp
  | some m =>
    by_cases hm : m < q.minLevel
    · simp [hm]
    · simp only [hm, if_false, Option.some.injEq, forall_eq', true_iff]
      exact UInt64.not_lt.1 hm

end Request

end WalkFilter
