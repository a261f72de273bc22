/-
What can go wrong in a store of edges, and the words for it.
-/
import WalkFilter.Graph.Element

namespace WalkFilter

/-- Why a store did not answer. -/
inductive Fault where
  /-- the store itself failed -/
  | store (cause : String)
  /-- the store does not know this edge type -/
  | unknownEdgeType (edgeType : String)
  /-- the store does not hold this vertex -/
  | vertexNotFound (v : VertexId)
deriving DecidableEq, Repr

/-- The words for a fault. -/
def Fault.message : Fault → String
  | store cause => "Graph store error: " ++ cause
  | unknownEdgeType edgeType => "Unknown edge type: " ++ edgeType
  | vertexNotFound v => "Vertex not found: VertexId(" ++ toString v.val.toNat ++ ")"

end WalkFilter
