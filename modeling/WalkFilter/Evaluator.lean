/-
Evaluators: trees of path filters.

A leaf is a tag sequence or a list of vertices; an inner node asks all of its
members and includes or goes on only where all of them do.

Main statements:
* `decide_all` — the decision of a node is the meet of those of its members;
* `decide_allOf` — leaving out the node above a single member changes nothing.
-/
import WalkFilter.Graph.Path
import WalkFilter.Tag.Sequence
import WalkFilter.VertexList

namespace WalkFilter

/-- A filter on paths. -/
inductive Evaluator where
  | tagSequence (s : TagSequence)
  | whitelist (l : VertexList)
  | blacklist (l : VertexList)
  | endAndTerminator (l : EndList)
  | all (members : List Evaluator)

namespace Evaluator

/-- All members together; a single one stands for itself. -/
def allOf : List Evaluator → Evaluator
  | [member] => member
  | members => all members

mutual

/-- The decision about a path of this length that ends on `v`. -/
def decide (depth : Nat) (v : Vertex) : Evaluator → Decision
  | tagSequence s => s.decide depth v
  | whitelist l => l.allow depth v.id
  | blacklist l => l.deny depth v.id
  | endAndTerminator l => l.decide depth v.id
  | all members => decideAll depth v members

/-- The decisions of all members together. -/
def decideAll (depth : Nat) (v : Vertex) : List Evaluator → Decision
  | [] => .includeAndContinue
  | member :: rest => (member.decide depth v).and (decideAll depth v rest)

end

/-- The decision about a path. -/
def decidePath (e : Evaluator) (p : Path) : Decision := e.decide p.length p.last

mutual

/-- The first tag sequence of the tree, its members taken in order. -/
def tagSequence? : Evaluator → Option TagSequence
  | tagSequence s => some s
  | whitelist _ | blacklist _ | endAndTerminator _ => none
  | all members => firstTagSequence? members

/-- The first tag sequence of any of the members. -/
def firstTagSequence? : List Evaluator → Option TagSequence
  | [] => none
  | member :: rest => member.tagSequence?.or (firstTagSequence? rest)

end

/-- The written name of the kind of a filter. -/
def kind : Evaluator → String
  | tagSequence _ => "tag-sequence"
  | whitelist _ => "whitelist"
  | blacklist _ => "blacklist"
  | endAndTerminator _ => "end-and-terminator"
  | all _ => "all"

/-- The members of a node, and the leaf itself as its only member. -/
def members : Evaluator → List Evaluator
  | all members => members
  | leaf => [leaf]

theorem decideAll_eq (depth : Nat) (v : Vertex) (members : List Evaluator) :
    decideAll depth v members
      = (members.map (decide depth v)).foldr Decision.and .includeAndContinue := by
  induction members with
  | nil => simp [decideAll]
  | cons member rest ih => simp [decideAll, ih]

/-- The decision of a node is the meet of those of its members. -/
theorem decide_all (depth : Nat) (v : Vertex) (members : List Evaluator) :
    (all members).decide depth v
      = (members.map (decide depth v)).foldr Decision.and .includeAndContinue := by
  rw [decide, decideAll_eq]

/-- Leaving out the node above a single member changes no decision. -/
theorem decide_allOf (depth : Nat) (v : Vertex) (members : List Evaluator) :
    (allOf members).decide depth v = (all members).decide depth v := by
  match members with
  | [] => rfl
  | [member] => simp [allOf, decide_all]
  | _ :: _ :: _ => rfl

end Evaluator

end WalkFilter
