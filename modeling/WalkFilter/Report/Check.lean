/-
The report on a request file: what the request in it compiles to.
-/
import WalkFilter.Report.Basic
import WalkFilter.Request.File
import WalkFilter.Request.Plan

namespace WalkFilter

/-- What a plan is made of. -/
structure PlanSummary where
  /-- the kind of the evaluator -/
  evaluator : String
  /-- the kinds of its members -/
  members : List String
  tagPositions : Nat
  edgePositions : Nat
  /-- the first hop has a selector of its own -/
  firstStep : Bool
  bounds : Bounds
deriving DecidableEq

/-- The summary of a plan. -/
def Plan.summary (plan : Plan) : PlanSummary where
  evaluator := plan.evaluator.kind
  members := plan.evaluator.members.map (·.kind)
  tagPositions := (plan.evaluator.tagSequence?.map (·.size)).getD 0
  edgePositions := plan.itinerary.repeating.length
  firstStep := plan.itinerary.first.isSome
  bounds := plan.bounds

/-- Bounds as a value. -/
def Bounds.toJson (b : Bounds) : Json :=
  let word? (n : Option UInt64) : Json := match n with
    | some n => .ofWord n
    | none => .null
  .object
    [("minLevel", .ofWord b.minLevel), ("maxLevel", word? b.maxLevel), ("limit", word? b.limit),
     ("uniqueness", b.uniqueness.toJson), ("bfs", .bool b.breadthFirst),
     ("optional", .bool b.optional)]

namespace PlanSummary

/-- The lines for people, after the name of the file. -/
def lines (s : PlanSummary) (file : String) : List String :=
  ["Request:   " ++ file,
   "Evaluator: " ++ s.evaluator ++ " [" ++ Report.joined ", " s.members ++ "]",
   "Tag positions:  " ++ toString s.tagPositions,
   "Edge positions: " ++ toString s.edgePositions
     ++ (if s.firstStep then " + initial step" else ""),
   "Levels:    " ++ toString s.bounds.minLevel.toNat ++ ".."
     ++ (match s.bounds.maxLevel with
       | some m => toString m.toNat
       | none => "unbounded"),
   "Uniqueness: " ++ s.bounds.uniqueness.title,
   "Order:     " ++ (if s.bounds.breadthFirst then "breadth-first" else "depth-first")]

/-- The value for programs. -/
def toJson (s : PlanSummary) (file : String) : Json :=
  .object
    [("file", .string file), ("evaluator", .string s.evaluator),
     ("members", .array (s.members.map .string)), ("tagPositions", .natural s.tagPositions),
     ("edgePositions", .natural s.edgePositions), ("initialStep", .bool s.firstStep),
     ("bounds", s.bounds.toJson)]

/-- The report on a file whose request has this summary. -/
def report (s : PlanSummary) (file : String) : Report := ⟨s.lines file, s.toJson file⟩

end PlanSummary

/-- A question about a request file. -/
structure CheckQuery where
  file : String
  /-- the request is for a subgraph -/
  subgraph : Bool := false
deriving DecidableEq, Repr

namespace CheckQuery

/-- The request of the file, given the bytes of the file if there is one. -/
def request (q : CheckQuery) (content : Option ByteArray) : Except RequestError Request :=
  (Request.ofFile q.file content).bind fun r => if q.subgraph then r.forSubgraph else .ok r

/-- The report, or why there is none. -/
def report (q : CheckQuery) (content : Option ByteArray) : Except RequestError Report :=
  ((q.request content).bind Request.compile).map fun plan => plan.summary.report q.file

/-- What the log is told. -/
def notices (q : CheckQuery) (content : Option ByteArray) : List Notice :=
  .checking q.file :: match q.request content with
    | .ok r => r.notices
    | .error _ => []

end CheckQuery

end WalkFilter
