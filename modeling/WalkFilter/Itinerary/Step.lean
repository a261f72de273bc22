/-
Edge steps and selectors: which edges to follow from one vertex.

A step is written as an edge type with a direction mark, as in `KNOWS>`,
`<KNOWS` and `KNOWS`, which is followed both ways.  A name between quotes is
taken as it stands, and marks are then looked for outside the quotes.  A
selector lists steps, separated by '|'.
-/
import WalkFilter.Text
import WalkFilter.Graph.Element

namespace WalkFilter

/-- The edges of one type, or of any type, in one direction. -/
structure EdgeStep where
  /-- the type to follow; none follows every type -/
  edgeType : Option String
  direction : Direction
deriving DecidableEq, Repr

namespace EdgeStep

/-- Every edge, either way. -/
def wildcard : EdgeStep := ⟨none, .both⟩

/-- The character that quotes an edge type. -/
def quote : Char := '\x60'

/-- The text between the first quote and the last, and the text around them; none unless there
are two quotes. -/
def unquote? (cs : List Char) : Option (List Char × List Char) :=
  match cs.dropWhile (· ≠ quote) with
  | [] => none
  | _ :: tail =>
    match tail.reverse.dropWhile (· ≠ quote) with
    | [] => none
    | _ :: inner =>
      some (inner.reverse,
        cs.takeWhile (· ≠ quote) ++ (tail.reverse.takeWhile (· ≠ quote)).reverse)

/-- The direction that the marks of a text ask for; the incoming mark wins. -/
def directionOf (marks : List Char) : Direction :=
  if '<' ∈ marks then .incoming
  else if '>' ∈ marks then .outgoing
  else .both

/-- The edge type of a text without quotes: what is left of it without marks and colons. -/
def bareName (cs : List Char) : List Char :=
  Chars.trim (cs.filter fun c => c ≠ '<' && c ≠ '>' && c ≠ ':')

/-- An empty name stands for every type. -/
def typeOf (name : List Char) : Option String :=
  if name.isEmpty then none else some (String.ofList name)

/-- The step that a text spells out.  Every text spells out one. -/
def parse (s : String) : EdgeStep :=
  let cs := Chars.trim s.toList
  match unquote? cs with
  | some (name, marks) => ⟨typeOf name, directionOf marks⟩
  | none => ⟨typeOf (bareName cs), directionOf cs⟩

/-- The step in filter notation, without quotes; '*' stands for every type. -/
def render (s : EdgeStep) : String :=
  let name := s.edgeType.getD "*"
  match s.direction with
  | .incoming => "<" ++ name
  | .outgoing => name ++ ">"
  | .both => name

/-- Does the step follow this edge from `v`? -/
def admits (s : EdgeStep) (e : Edge) (v : VertexId) : Bool :=
  s.edgeType.all (· = e.edgeType) && s.direction.admits e v

end EdgeStep

/-- The steps to try from one vertex, in order; at least one. -/
structure Selector where
  steps : List EdgeStep
  steps_ne_nil : steps ≠ []
deriving DecidableEq

namespace Selector

/-- The selector that follows every edge, either way. -/
def wildcard : Selector := ⟨[.wildcard], by simp⟩

/-- The selector of a list of steps; no steps at all stand for every edge. -/
def ofSteps : List EdgeStep → Selector
  | [] => wildcard
  | s :: rest => ⟨s :: rest, by simp⟩

/-- The steps of the alternatives that are not blank. -/
def parse (filter : String) : Selector :=
  ofSteps (((Text.split '|' filter).filter (!Text.isBlank ·)).map EdgeStep.parse)

theorem steps_ofSteps {steps : List EdgeStep} (h : steps ≠ []) : (ofSteps steps).steps = steps := by
  cases steps with
  | nil => exact absurd rfl h
  | cons s rest => rfl

end Selector

end WalkFilter
