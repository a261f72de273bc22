/-
Itineraries: which edges to follow at each depth.

An itinerary repeats its selectors with depth.  One that does not begin at
the start vertex uses its first selector once, for the first hop, and repeats
the others from then on; without others nothing is followed after that hop.
-/
import WalkFilter.DepthCycle
import WalkFilter.Itinerary.Step

namespace WalkFilter

/-- The selectors of the depths of a walk. -/
structure Itinerary where
  /-- the selector of the first hop, where it is not one of the repeating ones -/
  first : Option Selector
  repeating : List Selector
deriving DecidableEq

namespace Itinerary

/-- Follow every edge, either way, at every depth. -/
def unrestricted : Itinerary := ⟨none, [.wildcard]⟩

/-- The repeating selectors, one hop later when the first hop has its own. -/
def cycle (i : Itinerary) : DepthCycle Selector := ⟨i.repeating, i.first.isSome⟩

/-- The selector for the hop from a vertex at this depth. -/
def selectorAt (i : Itinerary) (depth : Nat) : Option Selector :=
  match i.first, depth with
  | some s, 0 => some s
  | _, d => i.cycle.at? d

/-- The steps to try from a vertex at this depth. -/
def stepsAt (i : Itinerary) (depth : Nat) : List EdgeStep :=
  match i.selectorAt depth with
  | some s => s.steps
  | none => []

/-- The itinerary of a list of positions.  No positions at all restrict nothing. -/
def ofPositions (positions : List String) (beginAtStart : Bool) : Itinerary :=
  match positions.map Selector.parse, beginAtStart with
  | [], _ => unrestricted
  | s :: rest, true => ⟨none, s :: rest⟩
  | s :: rest, false => ⟨some s, rest⟩

/-- The itinerary of an edge filter.  No filter or a blank one restricts nothing. -/
def parse (filter : Option String) (beginAtStart : Bool) : Itinerary :=
  match filter with
  | none => unrestricted
  | some f =>
    if Text.isBlank f then unrestricted else ofPositions (Text.split ',' f) beginAtStart

/-- Without repeating selectors a walk ends after its first hop. -/
theorem stepsAt_succ_of_repeating_nil {i : Itinerary} (h : i.repeating = []) (depth : Nat) :
    i.stepsAt (depth + 1) = [] := by
  have : i.selectorAt (depth + 1) = none := by
    cases hf : i.first <;> simp [selectorAt, cycle, DepthCycle.at?, DepthCycle.indexAt, h, hf]
  simp [stepsAt, this]

end Itinerary

end WalkFilter
