/-
The report on an edge filter: the steps of each of its positions.
-/
import WalkFilter.Itinerary
import WalkFilter.Report.Basic

namespace WalkFilter

/-- A question about an edge filter. -/
structure EdgeFilterQuery where
  filter : String
  /-- the first position is for the first hop only -/
  offset : Bool := false
deriving DecidableEq, Repr

namespace EdgeFilterQuery

/-- The positions of the filter. -/
def itinerary (q : EdgeFilterQuery) : Itinerary := .parse (some q.filter) !q.offset

/-- The steps of a selector in filter notation. -/
def stepTexts (s : Selector) : List String := s.steps.map (·.render)

/-- The steps of a selector on a line. -/
def stepLine (s : Selector) : String := Report.joined " | " (stepTexts s)

/-- The steps of a selector as a value. -/
def stepsJson (s : Selector) : Json := .array ((stepTexts s).map .string)

/-- The report. -/
def report (q : EdgeFilterQuery) : Report where
  lines :=
    ["Edge filter: " ++ q.filter]
    ++ q.itinerary.first.toList.map (fun s => "  initial: " ++ stepLine s)
    ++ (if q.itinerary.repeating.isEmpty then ["  (no repeating positions)"]
        else q.itinerary.repeating.mapIdx fun i s => Report.bracketed i ++ stepLine s)
  json := .object
    [("filter", .string q.filter),
     ("initialSteps", match q.itinerary.first with
       | some s => stepsJson s
       | none => .null),
     ("positions", .array (q.itinerary.repeating.map stepsJson))]

end EdgeFilterQuery

end WalkFilter
