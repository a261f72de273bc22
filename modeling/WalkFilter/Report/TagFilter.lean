/-
The report on a tag filter: its rules, and what they decide about a vertex.
-/
import WalkFilter.Report.Basic
import WalkFilter.Tag.Sequence

namespace WalkFilter

/-- A question about a tag filter. -/
structure TagFilterQuery where
  filter : String
  /-- the tags of a vertex to decide about -/
  probe : Option (List String) := none
  /-- the depth at which the vertex is met -/
  depth : UInt64 := 1
  minLevel : UInt64 := 0
  filterStart : Bool := false
  /-- the filter begins on the first hop -/
  offset : Bool := false
deriving DecidableEq, Repr

namespace TagFilterQuery

/-- The rules of the filter. -/
def sequence (q : TagFilterQuery) : TagSequence :=
  .parse (some q.filter) ⟨q.filterStart, !q.offset, q.minLevel⟩

/-- The decision about the vertex, if there is one; blanks around its tags are left out. -/
def decision? (q : TagFilterQuery) : Option Decision :=
  q.probe.map fun tags => q.sequence.decide q.depth.toNat ⟨⟨0⟩, .ofList (tags.map Text.trim)⟩

/-- A pattern for people: a dash stands for one without alternatives. -/
def patternText (p : Pattern) : String := if p.isNone then "-" else p.render

/-- The line of a rule. -/
def ruleLine (i : Nat) (r : TagRule) : String :=
  Report.bracketed i ++ "whitelist=" ++ patternText r.whitelist
    ++ " blacklist=" ++ patternText r.blacklist
    ++ " end=" ++ patternText r.endVertices
    ++ " terminators=" ++ patternText r.terminators

/-- The value of a rule. -/
def ruleJson (i : Nat) (r : TagRule) : Json :=
  .object
    [("position", .natural i), ("whitelist", .string r.whitelist.render),
     ("blacklist", .string r.blacklist.render), ("endVertices", .string r.endVertices.render),
     ("terminators", .string r.terminators.render)]

/-- The lines about the vertex. -/
def decisionLines (q : TagFilterQuery) : List String :=
  match q.decision? with
  | some d =>
    ["", "Decision at depth " ++ toString q.depth.toNat ++ ": include=" ++ Report.yesNo d.includes
      ++ " continue=" ++ Report.yesNo d.continues]
  | none => []

/-- The report. -/
def report (q : TagFilterQuery) : Report where
  lines :=
    ["Tag filter: " ++ q.filter,
     "Positions:  " ++ toString q.sequence.size ++ (if q.offset then " (offset)" else ""),
     "End vertices only: " ++ Report.yesNo q.sequence.endsOnly]
    ++ q.sequence.rules.positions.mapIdx ruleLine
    ++ q.decisionLines
  json := .object
    [("filter", .string q.filter), ("offset", .bool q.offset),
     ("endVerticesOnly", .bool q.sequence.endsOnly),
     ("groups", .array (q.sequence.rules.positions.mapIdx ruleJson)),
     ("depth", .ofWord q.depth),
     ("decision", match q.decision? with
       | some d => .string d.name
       | none => .null)]

end TagFilterQuery

end WalkFilter
