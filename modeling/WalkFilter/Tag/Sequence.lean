/-
Tag sequences: one tag rule per depth, repeating.

The rules of a filter are cut at ','.  One end vertex or terminator clause in
any of them puts the whole sequence into the mode in which only ends are
results.  The start vertex is decided without a rule, unless it is filtered
and the sequence begins on it.
-/
import WalkFilter.DepthCycle
import WalkFilter.Tag.Rule

namespace WalkFilter

/-- Which vertices a sequence is about. -/
structure SequenceOptions where
  /-- the start vertex is filtered like any other -/
  filterStart : Bool := false
  /-- the sequence begins on the start vertex, otherwise on the first hop -/
  beginAtStart : Bool := true
  /-- below this depth nothing is a result -/
  minLevel : UInt64 := 0
deriving DecidableEq, Repr

/-- The tag rules of a filter, the first for the start vertex or for the first hop. -/
structure TagSequence where
  rules : DepthCycle TagRule
  options : SequenceOptions
  /-- the decision about a start vertex that no rule is about -/
  startDecision : Decision
deriving DecidableEq

namespace TagSequence

/-- Once one rule is about ends, all of them are. -/
def spreadEndsOnly (rules : List TagRule) : List TagRule :=
  if rules.any (·.endsOnly) then rules.map ({ · with endsOnly := true }) else rules

/-- The sequence of the rules spelled out by one filter for each depth. -/
def ofFilters (filters : List String) (options : SequenceOptions) : TagSequence :=
  let parsed := filters.map TagRule.parse
  let rules := if parsed.isEmpty then [.empty] else parsed
  { rules := ⟨spreadEndsOnly rules, !options.beginAtStart⟩
    options
    startDecision :=
      if rules.any (·.endsOnly) then .excludeAndContinue else .includeAndContinue }

/-- The sequence of a filter text; no filter is a blank one. -/
def parse (filter : Option String) (options : SequenceOptions) : TagSequence :=
  ofFilters (Text.split ',' (filter.getD "")) options

/-- The number of rules before the sequence repeats. -/
def size (s : TagSequence) : Nat := s.rules.size

/-- Are only end vertices and terminators results? -/
def endsOnly (s : TagSequence) : Bool := s.rules.positions.any (·.endsOnly)

/-- The decision about a path of this length that ends on `v`. -/
def decide (s : TagSequence) (depth : Nat) (v : Vertex) : Decision :=
  if depth = 0 && !(s.options.filterStart && s.options.beginAtStart) then s.startDecision
  else match s.rules.at? depth with
    | none => s.startDecision
    | some rule => rule.decide v.tags (depth < s.options.minLevel.toNat)

/-- A sequence has at least one rule. -/
theorem size_ofFilters (filters : List String) (options : SequenceOptions) :
    (ofFilters filters options).size = max 1 filters.length := by
  have h : ∀ rules, (spreadEndsOnly rules).length = rules.length := by
    intro rules
    unfold spreadEndsOnly
    split <;> simp
  unfold ofFilters size DepthCycle.size
  cases filters with
  | nil => simp [h]
  | cons f rest => simp [h]

end TagSequence

end WalkFilter
