/-
Edge sources: stores that list the edges of a vertex through cursors.

A source may refuse to open a cursor, and an open cursor may answer with a
fault instead of an edge; nothing is promised about what a cursor answers
after its end.  A finite source promises that its cursors come to an end.
-/
import WalkFilter.Fault
import WalkFilter.Itinerary.Step

namespace WalkFilter

/-- What a cursor answers to one call: an edge, a fault, or the end. -/
abbrev Item := Option (Except Fault Edge)

/-- A store of edges with cursors of type `κ`. -/
structure EdgeSource (κ : Type) where
  /-- begin to list the edges at a vertex that a step asks for -/
  openCursor : VertexId → EdgeStep → Except Fault κ
  /-- one call of a cursor: its answer, and the cursor for the next call -/
  next : κ → Item × κ

/-- A source whose cursors answer only finitely often before their end. -/
structure FiniteSource (κ : Type) extends EdgeSource κ where
  /-- a bound on the answers of a cursor before its end -/
  remaining : κ → Nat
  remaining_lt : ∀ {c c' : κ} {a : Except Fault Edge},
    next c = (some a, c') → remaining c' < remaining c

namespace EdgeSource

variable {κ : Type}

/-- The source with a failure built in: it refuses the edge type `refused`, and each of its
cursors answers `calls` calls before it is lost. -/
def failing (src : EdgeSource κ) (refused : Option String) (calls : Option Nat) :
    EdgeSource (κ × Nat) where
  openCursor v s :=
    match refused with
    | some t =>
      if s.edgeType = some t then .error (.unknownEdgeType t)
      else (src.openCursor v s).map (·, 0)
    | none => (src.openCursor v s).map (·, 0)
  next c :=
    if calls.any (· ≤ c.2) then (some (.error (.store "cursor lost")), c)
    else
      let (item, inner) := src.next c.1
      (item, inner, c.2 + 1)

end EdgeSource

end WalkFilter
