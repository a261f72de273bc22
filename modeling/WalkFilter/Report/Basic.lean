/-
Reports: what a command tells, as lines for people and as a value for
programs.
-/
import WalkFilter.Json.Value

namespace WalkFilter

/-- What a command tells. -/
structure Report where
  lines : List String
  json : Json

namespace Report

/-- The written form of a truth value. -/
def yesNo (b : Bool) : String := if b then "true" else "false"

/-- The texts with `sep` between neighbours. -/
def joined (sep : String) : List String → String
  | [] => ""
  | [s] => s
  | s :: rest => s ++ sep ++ joined sep rest

/-- The number in brackets that stands before a position. -/
def bracketed (i : Nat) : String := "  [" ++ toString i ++ "] "

/-- The text that is printed, with the value or with the lines. -/
def print (r : Report) (asJson : Bool) : String :=
  if asJson then r.json.pretty 0 ++ "\n"
  else String.join (r.lines.map (· ++ "\n"))

end Report

end WalkFilter
