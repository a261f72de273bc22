/-
Tag rules: what one position of a tag filter says about a vertex.

A filter such as `Person|+Actor|-Draft|/Film` is a list of alternatives, each
a clause: a role, given by its first character, and a requirement.  The rule
of a position collects the clauses by role and decides about a vertex with the
precedence blacklist, terminator, end vertex, whitelist.
-/
import WalkFilter.Decision
import WalkFilter.Tag.Pattern

namespace WalkFilter

/-- What a clause says about the vertices that satisfy its requirement. -/
inductive Role where
  /-- such a vertex may be walked through -/
  | whitelist
  /-- no path may end on or pass such a vertex -/
  | blacklist
  /-- such a vertex is a result, and the walk goes on -/
  | endVertex
  /-- such a vertex is a result, and the walk ends there -/
  | terminator
deriving DecidableEq, Repr

namespace Role

/-- The first character of a token that gives its role. -/
def ofMark? : Char → Option Role
  | '+' => some whitelist
  | '-' => some blacklist
  | '>' => some endVertex
  | '/' => some terminator
  | _ => none

/-- The roles that put a filter into the mode in which only their vertices are results. -/
def marksEnds : Role → Bool
  | endVertex | terminator => true
  | whitelist | blacklist => false

end Role

/-- One alternative of a tag filter. -/
structure Clause where
  role : Role
  requirement : Requirement
deriving DecidableEq

/-- The clause that a token spells out; a blank token spells out none.  A token without a role
mark asks for its tags in the whitelist. -/
def Clause.parse? (token : String) : Option Clause :=
  match Chars.trim token.toList with
  | [] => none
  | c :: body =>
    match Role.ofMark? c with
    | some role => some ⟨role, .parse (String.ofList body)⟩
    | none => some ⟨.whitelist, .parse (String.ofList (c :: body))⟩

/-- The clauses of one position, collected by role. -/
structure TagRule where
  whitelist : Pattern := .none
  blacklist : Pattern := .none
  endVertices : Pattern := .none
  terminators : Pattern := .none
  /-- only end vertices and terminators are results -/
  endsOnly : Bool := false
deriving DecidableEq

namespace TagRule

/-- The rule without clauses. -/
def empty : TagRule := {}

/-- The pattern of a role. -/
def pattern (r : TagRule) : Role → Pattern
  | .whitelist => r.whitelist
  | .blacklist => r.blacklist
  | .endVertex => r.endVertices
  | .terminator => r.terminators

/-- The rule with one more clause.  A clause that marks ends restricts the results even when
its requirement adds no alternative. -/
def addClause (r : TagRule) (c : Clause) : TagRule :=
  match c.role with
  | .whitelist => { r with whitelist := r.whitelist.add c.requirement }
  | .blacklist => { r with blacklist := r.blacklist.add c.requirement }
  | .endVertex => { r with endVertices := r.endVertices.add c.requirement, endsOnly := true }
  | .terminator => { r with terminators := r.terminators.add c.requirement, endsOnly := true }

/-- The rule with the clause of a token, if the token spells out one. -/
def addToken (r : TagRule) (token : String) : TagRule :=
  match Clause.parse? token with
  | some c => r.addClause c
  | none => r

/-- The rule with the clauses of all '|'-separated tokens of a filter. -/
def addFilter (r : TagRule) (filter : String) : TagRule :=
  (Text.split '|' filter).foldl addToken r

/-- The rule of a filter. -/
def parse (filter : String) : TagRule := empty.addFilter filter

/-- The decision about a vertex with these tags.  Below the minimal level nothing is a result,
and a terminator is walked through. -/
def decide (r : TagRule) (carried : TagSet) (belowMin : Bool) : Decision :=
  if r.blacklist.accepts carried then .excludeAndPrune
  else if r.terminators.accepts carried then
    if belowMin then .excludeAndContinue else .includeAndPrune
  else if r.endVertices.accepts carried then
    if belowMin then .excludeAndContinue else .includeAndContinue
  else if r.whitelist.isNone || r.whitelist.accepts carried then
    if r.endsOnly || belowMin then .excludeAndContinue else .includeAndContinue
  else .excludeAndPrune

/-- A clause adds its requirement to the pattern of its role and leaves the others alone. -/
theorem pattern_addClause (r : TagRule) (c : Clause) (role : Role) :
    (r.addClause c).pattern role
      = if role = c.role then (r.pattern role).add c.requirement else r.pattern role := by
  obtain ⟨cr, q⟩ := c
  cases cr <;> cases role <;> simp [addClause, pattern]

/-- Only clauses that mark ends restrict the results to ends. -/
theorem endsOnly_addClause (r : TagRule) (c : Clause) :
    (r.addClause c).endsOnly = (r.endsOnly || c.role.marksEnds) := by
  obtain ⟨cr, q⟩ := c
  cases cr <;> simp [addClause, Role.marksEnds]

end TagRule

end WalkFilter
