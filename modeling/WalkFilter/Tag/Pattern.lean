/-
Requirements on the tags of a vertex, and patterns: alternatives of requirements.

A requirement is written as tag names joined by ':' (all of them are asked
for) or as a lone '*' (nothing is asked for).  A pattern collects
requirements; a vertex matches it when one of them holds.

Main statements:
* `Requirement.holds_tags_iff` — a set of tags holds when it is not empty and
  the vertex carries all of it;
* `Pattern.accepts_add` — adding a requirement to a pattern adds exactly the
  vertices for which it holds.
-/
import WalkFilter.Text
import WalkFilter.Graph.Element

namespace WalkFilter

/-- What one alternative of a tag filter asks of a vertex. -/
inductive Requirement where
  /-- asks for nothing -/
  | universal
  /-- asks for each of the tags; without any tag it asks for what no vertex has -/
  | tags (members : TagSet)
deriving DecidableEq

namespace Requirement

/-- The members between the colons of a text, trimmed, blank ones left out. -/
def members (body : String) : TagSet :=
  .ofList (((Text.split ':' body).map Text.trim).filter (· ≠ ""))

/-- A lone '*' asks for nothing, any other text for the members between its colons. -/
def parse (body : String) : Requirement :=
  if Text.trim body = "*" then universal else tags (members body)

/-- Does a vertex with these tags satisfy the requirement? -/
def holds (carried : TagSet) : Requirement → Bool
  | universal => true
  | tags asked => !asked.isEmpty && asked.toList.all (· ∈ carried)

theorem holds_tags_iff {carried asked : TagSet} :
    holds carried (tags asked) = true ↔ (∃ t, t ∈ asked) ∧ ∀ t ∈ asked, t ∈ carried := by
  have h : asked.isEmpty = false ↔ ∃ t, t ∈ asked := by
    rw [← Bool.not_eq_true, SortedSet.isEmpty_iff]
    simp
  simp [holds, h, SortedSet.mem_toList]

end Requirement

/-- Alternatives of requirements, in the form that tells equal patterns apart from others only
when they differ: once nothing is asked for, the other alternatives are forgotten. -/
inductive Pattern where
  /-- accepts every vertex -/
  | all
  /-- accepts the vertices that carry all tags of one of the alternatives -/
  | anyOf (alternatives : SortedSet TagSet)
deriving DecidableEq

namespace Pattern

/-- The pattern without alternatives. -/
def none : Pattern := anyOf .empty

/-- One more alternative.  A requirement of no tags adds nothing. -/
def add (p : Pattern) (r : Requirement) : Pattern :=
  match p, r with
  | all, _ => all
  | anyOf _, .universal => all
  | anyOf alternatives, .tags asked =>
    if asked.isEmpty then p else anyOf (alternatives.insert asked)

/-- The pattern with the alternative that a token spells out. -/
def addToken (p : Pattern) (token : String) : Pattern := p.add (.parse token)

/-- Does a vertex with these tags match one of the alternatives? -/
def accepts (carried : TagSet) : Pattern → Bool
  | all => true
  | anyOf alternatives => alternatives.toList.any fun asked => asked.toList.all (· ∈ carried)

/-- True when no alternative has been added.  A filter reads this as "no restriction". -/
def isNone : Pattern → Bool
  | all => false
  | anyOf alternatives => alternatives.isEmpty

/-- True once an alternative asks for nothing. -/
def isAll : Pattern → Bool
  | all => true
  | anyOf _ => false

/-- The alternatives that ask for a single tag, in ascending order. -/
def singles : Pattern → List String
  | all => []
  | anyOf alternatives => alternatives.toList.filterMap fun asked =>
    match asked.toList with
    | [tag] => some tag
    | _ => Option.none

/-- The alternatives that ask for several tags, in ascending order. -/
def compounds : Pattern → List TagSet
  | all => []
  | anyOf alternatives => alternatives.toList.filter fun asked => asked.size ≠ 1

/-- The pattern in filter notation: single tags first, then compounds, joined by '|'. -/
def render : Pattern → String
  | all => "*"
  | p => Text.join '|' (p.singles ++ p.compounds.map fun asked => Text.join ':' asked.toList)

/-- Adding a requirement adds exactly the vertices for which it holds. -/
theorem accepts_add (carried : TagSet) (p : Pattern) (r : Requirement) :
    (p.add r).accepts carried = (p.accepts carried || r.holds carried) := by
  match p, r with
  | all, _ => simp [add, accepts]
  | anyOf _, .universal => simp [add, accepts, Requirement.holds]
  | anyOf alternatives, .tags asked =>
    unfold add
    cases he : asked.isEmpty with
    | true => simp [Requirement.holds, he]
    | false =>
      -- The alternatives after the insertion are `asked` and those before it.
      have hmem : ∀ a, a ∈ (alternatives.insert asked).toList ↔ a = asked ∨ a ∈ alternatives.toList :=
        fun a => SortedSet.mem_insert
      rw [Bool.eq_iff_iff]
      simp only [accepts, Requirement.holds, he, Bool.false_eq_true, if_false, Bool.not_false,
        Bool.true_and, Bool.or_eq_true, List.any_eq_true, hmem]
      constructor
      · rintro ⟨a, rfl | ha, h⟩
        · exact Or.inr h
        · exact Or.inl ⟨a, ha, h⟩
      · rintro (⟨a, ha, h⟩ | h)
        · exact ⟨a, Or.inr ha, h⟩
        · exact ⟨asked, Or.inl rfl, h⟩

end Pattern

end WalkFilter
