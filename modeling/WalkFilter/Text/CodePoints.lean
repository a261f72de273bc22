/-
Classes of characters, given by ranges of code points.
-/

namespace WalkFilter

/-- Closed ranges of code points. -/
abbrev CodePoints := List (Nat × Nat)

namespace CodePoints

/-- Is the character in one of the ranges? -/
def has (ranges : CodePoints) (c : Char) : Bool :=
  ranges.any fun r => r.1 ≤ c.toNat && c.toNat ≤ r.2

/-- Are the ranges ascending, with a gap between neighbours? -/
def areApart : CodePoints → Bool
  | [] => true
  | [r] => r.1 ≤ r.2
  | r :: s :: rest => r.1 ≤ r.2 && r.2 + 1 < s.1 && areApart (s :: rest)

/-- The number of code points in the ranges. -/
def size (ranges : CodePoints) : Nat := ranges.foldl (fun n r => n + (r.2 + 1 - r.1)) 0

end CodePoints

end WalkFilter
