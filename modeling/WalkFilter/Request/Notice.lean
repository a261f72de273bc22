/-
Notices: what the log is told about a request.
-/
import WalkFilter.Json.Value
import WalkFilter.Text.Shown

namespace WalkFilter

/-- How much a notice matters. -/
inductive Severity where
  | debug
  | info
  | warning
deriving DecidableEq, Repr

/-- The written name of a severity. -/
def Severity.name : Severity → String
  | debug => "DEBUG"
  | info => "INFO"
  | warning => "WARN"

/-- What the log is told about a request. -/
inductive Notice where
  /-- an edge filter has a first position only -/
  | noRepeatingPositions
  /-- a sequence stands beside filters, which are not looked at -/
  | sequenceOverridesFilters
  /-- a request has been compiled: its positions, and the lengths of its lists of vertices -/
  | compiled (tagRules edgePositions : Nat) (firstStep : Bool)
      (whitelist blacklist ends terminators : Nat)
  /-- a request file is about to be checked -/
  | checking (file : String)
deriving DecidableEq, Repr

namespace Notice

/-- How much the notice matters. -/
def severity : Notice → Severity
  | noRepeatingPositions | sequenceOverridesFilters => .warning
  | compiled .. => .debug
  | checking _ => .info

/-- The words for a notice. -/
def message : Notice → String
  | noRepeatingPositions =>
    "edge sequence has no repeating positions; nothing is expanded past depth 0"
  | sequenceOverridesFilters =>
    "sequence overrides labelFilter and relationshipFilter; they are ignored"
  | compiled .. => "compiled traversal request"
  | checking file => "Checking " ++ Text.shown file

/-- The values that go with the words. -/
def values : Notice → List (String × Json)
  | noRepeatingPositions | sequenceOverridesFilters | checking _ => []
  | compiled tagRules edgePositions firstStep whitelist blacklist ends terminators =>
    [("tag_groups", .natural tagRules), ("edge_positions", .natural edgePositions),
     ("initial_step", .bool firstStep), ("whitelist", .natural whitelist),
     ("blacklist", .natural blacklist), ("end_vertices", .natural ends),
     ("terminators", .natural terminators)]

end Notice

end WalkFilter
