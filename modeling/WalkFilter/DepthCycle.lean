/-
Positions that repeat with the depth of a path.

A cycle of `n` positions gives depth `d` the position `d % n`.  An offset
cycle begins one hop later: depth 0 has no position and depth `d + 1` has the
position `d % n`.
-/

namespace WalkFilter

/-- Positions that repeat with depth, from depth 0 on or, with an offset, from depth 1 on. -/
structure DepthCycle (α : Type) where
  positions : List α
  offset : Bool
deriving DecidableEq

namespace DepthCycle

variable {α : Type}

/-- The index of the position in force at a depth. -/
def indexAt (c : DepthCycle α) (depth : Nat) : Option Nat :=
  if c.positions.isEmpty then none
  else match c.offset, depth with
    | false, d => some (d % c.positions.length)
    | true, 0 => none
    | true, d + 1 => some (d % c.positions.length)

/-- The position in force at a depth. -/
def at? (c : DepthCycle α) (depth : Nat) : Option α :=
  (c.indexAt depth).bind (c.positions[·]?)

/-- The number of positions. -/
def size (c : DepthCycle α) : Nat := c.positions.length

/-- True when there are no positions. -/
def isEmpty (c : DepthCycle α) : Bool := c.positions.isEmpty

end DepthCycle

end WalkFilter
