/-
Plans: requests compiled into an evaluator and an itinerary.

The filters of a request come from its tag filter and its edge filter, or
both from its sequence, in which tag rules and edge positions take turns.
What the log is told about a compilation is a value as well.
-/
import WalkFilter.Evaluator
import WalkFilter.Itinerary
import WalkFilter.Request.Basic
import WalkFilter.Request.Notice

namespace WalkFilter

/-- The bounds of a walk. -/
structure Bounds where
  minLevel : UInt64
  maxLevel : Option UInt64
  limit : Option UInt64
  uniqueness : Uniqueness
  breadthFirst : Bool
  optional : Bool
deriving DecidableEq

/-- A compiled request. -/
structure Plan where
  evaluator : Evaluator
  itinerary : Itinerary
  bounds : Bounds

/-- The elements at even positions, and those at odd positions. -/
def alternate {α : Type} : List α → List α × List α
  | [] => ([], [])
  | a :: rest => let (evens, odds) := alternate rest; (a :: odds, evens)

/-- The tag rules and the edge positions of a sequence.  The first piece is a tag rule when the
sequence begins at the start, and an edge position when it does not. -/
def splitSequence (sequence : String) (beginAtStart : Bool) : List String × List String :=
  let (evens, odds) := alternate ((Text.split ',' sequence).map Text.trim)
  if beginAtStart then (evens, odds) else (odds, evens)

/-- An edge filter without repeating positions is worth a warning. -/
def Itinerary.notices (i : Itinerary) : List Notice :=
  if i.repeating.isEmpty then [.noRepeatingPositions] else []

namespace Request

/-- What the request says about the start vertex and the least length. -/
def options (q : Request) : SequenceOptions :=
  ⟨q.filterStart, q.beginAtStart, q.minLevel⟩

/-- The sequence of a request, unless it is blank. -/
def sequence? (q : Request) : Option String := q.sequence.filter (!Text.isBlank ·)

/-- The tag sequence of a request. -/
def tagSequence (q : Request) : TagSequence :=
  match q.sequence? with
  | some s => .ofFilters (splitSequence s q.beginAtStart).1 q.options
  | none => .parse q.tagFilter q.options

/-- The itinerary of a request. -/
def itinerary (q : Request) : Itinerary :=
  match q.sequence? with
  | some s => .ofPositions (splitSequence s q.beginAtStart).2 q.beginAtStart
  | none => .parse q.edgeFilter q.beginAtStart

/-- The filters of a request: its tag sequence, and each list of vertices that is not empty. -/
def filters (q : Request) : List Evaluator :=
  .tagSequence q.tagSequence
    :: (if q.whitelist.isEmpty then []
        else [.whitelist ⟨.ofList q.whitelist, q.filterStart⟩])
    ++ (if q.blacklist.isEmpty then []
        else [.blacklist ⟨.ofList q.blacklist, q.filterStart⟩])
    ++ (EndList.ofLists? q.ends q.terminators q.filterStart q.minLevel).toList.map
        Evaluator.endAndTerminator

/-- The bounds of a request. -/
def bounds (q : Request) : Bounds :=
  ⟨q.minLevel, q.maxLevel, q.limit, q.uniqueness, q.breadthFirst, q.optional⟩

/-- The plan of a request with valid bounds. -/
def plan (q : Request) : Plan := ⟨.allOf q.filters, q.itinerary, q.bounds⟩

/-- Validate and compile. -/
def compile (q : Request) : Except RequestError Plan := q.validate.map fun _ => q.plan

theorem compile_eq_ok_iff {q : Request} {plan : Plan} :
    q.compile = .ok plan ↔ q.validate = .ok () ∧ plan = q.plan := by
  unfold compile
  cases q.validate with
  | error e => simp [Except.map]
  | ok u => simp [Except.map, eq_comm]

/-- What the log is told while the request is compiled; nothing when its bounds are refused. -/
def notices (q : Request) : List Notice :=
  match q.validate with
  | .error _ => []
  | .ok () =>
    (if q.sequence?.isSome && (q.tagFilter.isSome || q.edgeFilter.isSome) then
      [.sequenceOverridesFilters] else [])
    ++ q.itinerary.notices
    ++ [.compiled q.tagSequence.size q.itinerary.repeating.length q.itinerary.first.isSome
          q.whitelist.length q.blacklist.length q.ends.length q.terminators.length]

end Request

end WalkFilter
