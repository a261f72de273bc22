/-
Tagged graphs, built by adding vertices and edges.

Vertices and edges are numbered in the order in which they are added, up to
the greatest 64-bit number, which is then given again.  Beside its tags a
vertex keeps the edges that leave it and those that enter it, so a cursor
looks up the edges of one vertex only, and none at all for a type that no
edge was ever added with.  A cursor lists the leaving edges first, and a loop
once.

Main statement:
* `Graph.mem_edges_of_collect` — a cursor lists edges of the graph.
-/
import WalkFilter.Source.Expansion

namespace WalkFilter

/-- What a graph keeps for a vertex. -/
structure Node where
  tags : TagSet
  /-- the edges from this vertex, in the order in which they were added -/
  leaving : Array EdgeId
  /-- the edges to this vertex, in the order in which they were added -/
  entering : Array EdgeId
deriving DecidableEq

/-- A graph with tagged vertices and typed edges. -/
structure Graph where
  nodes : Array Node
  edges : Array Edge
  /-- the types that edges were added with -/
  edgeTypes : SortedSet String
deriving DecidableEq

namespace Graph

/-- The graph without vertices. -/
def empty : Graph := ⟨#[], #[], .empty⟩

/-- What the graph keeps for a vertex, if it has it. -/
def node? (g : Graph) (v : VertexId) : Option Node := g.nodes[v.val.toNat]?

/-- The vertex with this identity. -/
def vertex? (g : Graph) (v : VertexId) : Option Vertex := (g.node? v).map (⟨v, ·.tags⟩)

/-- The edge with this identity. -/
def edge? (g : Graph) (e : EdgeId) : Option Edge := g.edges[e.val.toNat]?

/-- The number after `size` numbers given in order; the greatest one is given again. -/
def number (size : Nat) : UInt64 := .ofNat (min size (UInt64.size - 1))

/-- The number that the next vertex gets. -/
def nextVertex (g : Graph) : VertexId := ⟨number g.nodes.size⟩

/-- The number that the next edge gets. -/
def nextEdge (g : Graph) : EdgeId := ⟨number g.edges.size⟩

/-- Put an element at an index, in place of the one there or after the last one. -/
def put {α : Type} (l : Array α) (i : Nat) (a : α) : Array α :=
  if h : i < l.size then l.set i a else l.push a

/-- The graph with one more vertex, which has these tags.  A vertex whose number was given
before keeps the edges listed for that number. -/
def addVertex (g : Graph) (tags : List String) : Graph :=
  let node := match g.node? g.nextVertex with
    | some n => { n with tags := .ofList tags }
    | none => ⟨.ofList tags, #[], #[]⟩
  { g with nodes := put g.nodes g.nextVertex.val.toNat node }

/-- The graph with one more edge between two of its vertices. -/
def addEdge (g : Graph) (source target : VertexId) (edgeType : String) : Except Fault Graph :=
  if (g.node? source).isNone then .error (.vertexNotFound source)
  else if (g.node? target).isNone then .error (.vertexNotFound target)
  else
    let id := g.nextEdge
    let nodes := g.nodes.modify source.val.toNat fun n => { n with leaving := n.leaving.push id }
    let nodes := nodes.modify target.val.toNat fun n => { n with entering := n.entering.push id }
    .ok ⟨nodes, put g.edges id.val.toNat ⟨id, edgeType, source, target⟩,
      g.edgeTypes.insert edgeType⟩

/-- The edges that a cursor has still to look at. -/
structure Cursor where
  /-- the type to list; none lists every type -/
  edgeType : Option String
  /-- the edges to look up, each with the mark whether a loop is passed over -/
  rest : List (EdgeId × Bool)
deriving DecidableEq

/-- The edges that lie in a direction from a vertex.  Among the entering edges of both
directions a loop is passed over, since it was already among the leaving ones. -/
def Cursor.adjacent (n : Node) : Direction → List (EdgeId × Bool)
  | .outgoing => n.leaving.toList.map (·, false)
  | .incoming => n.entering.toList.map (·, false)
  | .both => n.leaving.toList.map (·, false) ++ n.entering.toList.map (·, true)

/-- The cursor of a step over the edges of a vertex.  A type that the graph does not know has no
edges to look up. -/
def Cursor.start (known : SortedSet String) (n : Node) (s : EdgeStep) : Cursor where
  edgeType := s.edgeType
  rest := if s.edgeType.all (· ∈ known) then adjacent n s.direction else []

/-- Look up edges until one of them is of the type that is asked for. -/
def scan (g : Graph) (edgeType : Option String) :
    List (EdgeId × Bool) → Item × List (EdgeId × Bool)
  | [] => (none, [])
  | (id, passLoop) :: rest =>
    match g.edge? id with
    | none =>
      (some (.error (.store
        ("dangling adjacency entry EdgeId(" ++ toString id.val.toNat ++ ")"))), rest)
    | some e =>
      if (passLoop && e.source = e.target) || !edgeType.all (· = e.edgeType) then
        scan g edgeType rest
      else (some (.ok e), rest)

theorem length_scan_lt {g : Graph} {edgeType : Option String} {l rest : List (EdgeId × Bool)}
    {a : Except Fault Edge} (h : g.scan edgeType l = (some a, rest)) :
    rest.length < l.length := by
  induction l with
  | nil => simp [scan] at h
  | cons p l ih =>
    obtain ⟨id, passLoop⟩ := p
    simp only [scan] at h
    split at h
    · simp only [Prod.mk.injEq] at h
      simp [← h.2]
    · split at h
      · have := ih h
        simp only [List.length_cons]
        omega
      · simp only [Prod.mk.injEq] at h
        simp [← h.2]

/-- The graph as a source of edges. -/
def source (g : Graph) : FiniteSource Cursor where
  openCursor v s :=
    match g.node? v with
    | none => .error (.vertexNotFound v)
    | some n => .ok (.start g.edgeTypes n s)
  next c :=
    let (item, rest) := g.scan c.edgeType c.rest
    (item, { c with rest })
  remaining c := c.rest.length
  remaining_lt {c c' a} h := by
    cases hs : g.scan c.edgeType c.rest with
    | mk item rest =>
      simp only [hs, Prod.mk.injEq] at h
      obtain ⟨rfl, rfl⟩ := h
      exact length_scan_lt hs

theorem mem_edges_of_scan {g : Graph} {edgeType : Option String} {l rest : List (EdgeId × Bool)}
    {e : Edge} (h : g.scan edgeType l = (some (.ok e), rest)) : e ∈ g.edges := by
  induction l with
  | nil => simp [scan] at h
  | cons p l ih =>
    obtain ⟨id, passLoop⟩ := p
    simp only [scan] at h
    split at h
    · simp at h
    · next e' he =>
      split at h
      · exact ih h
      · simp only [Prod.mk.injEq, Option.some.injEq, Except.ok.injEq] at h
        obtain ⟨rfl, -⟩ := h
        exact Array.mem_of_getElem? he

/-- A cursor lists edges of the graph. -/
theorem mem_edges_of_collect {g : Graph} {c : Cursor} {edges : List Edge}
    (h : g.source.collect c = .ok edges) : ∀ e ∈ edges, e ∈ g.edges := by
  induction hn : g.source.remaining c using Nat.strongRecOn generalizing c edges with
  | ind n ih =>
  rw [FiniteSource.collect_unfold] at h
  match hc : g.source.next c with
  | (none, c') =>
    rw [hc] at h
    cases h
    simp
  | (some (.error f), c') =>
    rw [hc] at h
    cases h
  | (some (.ok e), c') =>
    rw [hc] at h
    simp only at h
    cases hr : g.source.collect c' with
    | error f => rw [hr] at h; cases h
    | ok more =>
      rw [hr] at h
      cases h
      intro e' he'
      -- The first edge comes from the scan, the others from the rest of the cursor.
      rcases List.mem_cons.1 he' with rfl | he'
      · cases hs : g.scan c.edgeType c.rest with
        | mk item rest =>
          simp only [source, hs, Prod.mk.injEq] at hc
          exact mem_edges_of_scan (hc.1 ▸ hs)
      · exact ih _ (hn ▸ g.source.remaining_lt hc) hr rfl e' he'

theorem mem_edges_of_edgesOf {g : Graph} {v : VertexId} {steps : List EdgeStep}
    {edges : List Edge} (h : g.source.edgesOf v steps = .ok edges) : ∀ e ∈ edges, e ∈ g.edges := by
  induction steps generalizing edges with
  | nil => cases h; simp
  | cons s rest ih =>
    rw [FiniteSource.edgesOf] at h
    cases ho : g.source.openCursor v s with
    | error f => rw [ho] at h; cases h
    | ok c =>
      rw [ho] at h
      simp only [Except.bind] at h
      cases hc : g.source.collect c with
      | error f => rw [hc] at h; cases h
      | ok first =>
        rw [hc] at h
        simp only at h
        cases hr : g.source.edgesOf v rest with
        | error f => rw [hr] at h; cases h
        | ok more =>
          rw [hr] at h
          cases h
          intro e he
          rcases List.mem_append.1 he with he | he
          · exact mem_edges_of_collect hc e he
          · exact ih hr e he

end Graph

end WalkFilter
