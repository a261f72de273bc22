/-
Paths: a start vertex and the hops made from it.

A path grows at its end, so the decision about a path and the expansion of it
look at the last hop only.  Nothing here asks that the hops fit together.

Main statements:
* `edges_hop`, `vertices_hop` — a hop adds its edge and its vertex at the end;
* `walks_eq_any` — a path walks the edges that are listed for it.
-/
import WalkFilter.Graph.Element

namespace WalkFilter

/-- A path, given by its start and the hops from there. -/
inductive Path where
  | start (v : Vertex)
  | hop (p : Path) (e : Edge) (v : Vertex)
deriving DecidableEq

namespace Path

/-- The vertex where the path begins. -/
def first : Path → Vertex
  | start v => v
  | hop p _ _ => p.first

/-- The vertex where the path ends. -/
def last : Path → Vertex
  | start v => v
  | hop _ _ v => v

/-- The number of hops. -/
def length : Path → Nat
  | start _ => 0
  | hop p _ _ => p.length + 1

/-- The edges in the order in which they are walked, and `rest` after them. -/
def edgesThen : Path → List Edge → List Edge
  | start _, rest => rest
  | hop p e _, rest => p.edgesThen (e :: rest)

/-- The edges in the order in which they are walked. -/
def edges (p : Path) : List Edge := p.edgesThen []

/-- The vertices in the order in which they are reached, the start first, and `rest` after them. -/
def verticesThen : Path → List Vertex → List Vertex
  | start v, rest => v :: rest
  | hop p _ v, rest => p.verticesThen (v :: rest)

/-- The vertices in the order in which they are reached, the start first. -/
def vertices (p : Path) : List Vertex := p.verticesThen []

/-- Does the path walk the edge with this identity? -/
def walks : Path → EdgeId → Bool
  | start _, _ => false
  | hop p e _, id => p.walks id || e.id = id

theorem edgesThen_eq (p : Path) (rest : List Edge) : p.edgesThen rest = p.edges ++ rest := by
  induction p generalizing rest with
  | start v => rfl
  | hop p e v ih => simp [edges, edgesThen, ih (e :: rest), ih [e]]

theorem verticesThen_eq (p : Path) (rest : List Vertex) :
    p.verticesThen rest = p.vertices ++ rest := by
  induction p generalizing rest with
  | start v => rfl
  | hop p e v ih => simp [vertices, verticesThen, ih (v :: rest), ih [v]]

@[simp] theorem edges_start (v : Vertex) : (start v).edges = [] := rfl

@[simp] theorem edges_hop (p : Path) (e : Edge) (v : Vertex) :
    (hop p e v).edges = p.edges ++ [e] := edgesThen_eq p [e]

@[simp] theorem vertices_start (v : Vertex) : (start v).vertices = [v] := rfl

@[simp] theorem vertices_hop (p : Path) (e : Edge) (v : Vertex) :
    (hop p e v).vertices = p.vertices ++ [v] := verticesThen_eq p [v]

/-- A path walks the edges that are listed for it. -/
theorem walks_eq_any (p : Path) (id : EdgeId) : p.walks id = p.edges.any (·.id = id) := by
  induction p with
  | start v => rfl
  | hop p e v ih => simp [walks, ih]

@[simp] theorem length_vertices (p : Path) : p.vertices.length = p.length + 1 := by
  induction p with
  | start v => rfl
  | hop p e v ih => simp [length, ih]

end Path

end WalkFilter
