/-
The ledger of a run of calls, and what the graph says of it.

A ledger keeps the vertices and the edges that a run has added, each with its
number, in two lists and nothing else.  A graph that agrees with a ledger
answers from its lists by vertex and its known types what the ledger says:

* **`agrees_build`** — while the numbers last, the graph that a run builds
  agrees with the ledger of the run;
* **`answer_listed`** — a cursor gives its edges one by one, and the end ever
  after;
* **`listsAt_of_agrees`** — the cursors at a vertex list what the ledger holds
  of it;
* **`build_of_refused`** — a refused edge leaves no trace.
-/
import WalkFilter.Proofs.Incidence

namespace WalkFilter

namespace Graph

/-- What a run of calls has added, in the order of the calls. -/
structure Ledger where
  vertices : List Vertex
  edges : List Edge

namespace Ledger

/-- Has the vertex been added? -/
def Has (l : Ledger) (v : VertexId) : Prop := ∃ x ∈ l.vertices, x.id = v

instance (l : Ledger) (v : VertexId) : Decidable (l.Has v) :=
  inferInstanceAs (Decidable (∃ x ∈ l.vertices, x.id = v))

/-- The ledger after a call.  Vertices and edges are numbered in order, and an edge between
vertices that have not been added is not added either. -/
def record (l : Ledger) : Change → Ledger
  | .vertex tags =>
    { l with vertices := l.vertices ++ [⟨⟨.ofNat l.vertices.length⟩, .ofList tags⟩] }
  | .edge source target edgeType =>
    if l.Has source ∧ l.Has target then
      { l with edges := l.edges ++ [⟨⟨.ofNat l.edges.length⟩, edgeType, source, target⟩] }
    else l

/-- The ledger of a run of calls. -/
def ofChanges (changes : List Change) : Ledger := changes.foldl record ⟨[], []⟩

/-- The edges of a type, or of any type. -/
def ofType (l : Ledger) (edgeType : Option String) : List Edge :=
  l.edges.filter fun e => edgeType.all (· = e.edgeType)

/-- The edges of a type that leave a vertex. -/
def leaving (l : Ledger) (v : VertexId) (edgeType : Option String) : List Edge :=
  (l.ofType edgeType).filter (·.source = v)

/-- The edges of a type that enter a vertex. -/
def entering (l : Ledger) (v : VertexId) (edgeType : Option String) : List Edge :=
  (l.ofType edgeType).filter (·.target = v)

/-- The edges of a type in a direction from a vertex.  Both ways, a loop is listed where it
leaves the vertex and not where it enters it. -/
def listing (l : Ledger) (v : VertexId) (edgeType : Option String) : Direction → List Edge
  | .outgoing => l.leaving v edgeType
  | .incoming => l.entering v edgeType
  | .both => l.leaving v edgeType ++ (l.entering v edgeType).filter (·.source ≠ v)

theorem ofChanges_concat (changes : List Change) (c : Change) :
    ofChanges (changes ++ [c]) = (ofChanges changes).record c := by
  rw [ofChanges, List.foldl_append, ofChanges]
  rfl

end Ledger

/-! ### The graph agrees with the ledger -/

/-- The graph has the vertices and the edges of the ledger. -/
structure Agrees (g : Graph) (l : Ledger) : Prop where
  vertices : ∀ v, g.vertex? v = l.vertices.find? (·.id = v)
  size : g.nodes.size = l.vertices.length
  edges : g.edges.toList = l.edges

theorem Agrees.has_iff {g : Graph} {l : Ledger} (h : g.Agrees l) (v : VertexId) :
    l.Has v ↔ (g.node? v).isSome := by
  have hvertex : (g.vertex? v).isSome = (g.node? v).isSome := Option.isSome_map
  rw [← hvertex, h.vertices, List.find?_isSome]
  simp only [Ledger.Has, decide_eq_true_eq]

theorem number_of_lt {n : Nat} (h : n < 2 ^ 64) : number n = .ofNat n := by
  have hmin : min n (UInt64.size - 1) = n := by
    simp only [UInt64.size]
    omega
  rw [number, hmin]

theorem Agrees.nextVertex_eq {g : Graph} {l : Ledger} (hg : g.Agrees l)
    (h : g.nodes.size < 2 ^ 64) : g.nextVertex = ⟨.ofNat l.vertices.length⟩ := by
  rw [nextVertex, number_of_lt h, hg.size]

theorem Agrees.nextEdge_eq {g : Graph} {l : Ledger} (hg : g.Agrees l)
    (h : g.edges.size < 2 ^ 64) : g.nextEdge = ⟨.ofNat l.edges.length⟩ := by
  rw [nextEdge, number_of_lt h, ← hg.edges, Array.length_toList]

theorem vertex?_addVertex (g : Graph) (tags : List String) (v : VertexId) :
    (g.addVertex tags).vertex? v
      = if v = g.nextVertex then some ⟨v, .ofList tags⟩ else g.vertex? v := by
  rw [vertex?, node?_addVertex]
  split <;> rfl

theorem agrees_addVertex {g : Graph} {l : Ledger} (hg : g.Agrees l) (h : g.nodes.size < 2 ^ 64)
    (tags : List String) : (g.addVertex tags).Agrees (l.record (.vertex tags)) where
  vertices v := by
    -- The next number has not been given before.
    have hnew : g.vertex? g.nextVertex = none := by
      rw [vertex?, node?_nextVertex h]
      rfl
    rw [vertex?_addVertex, Ledger.record, List.find?_append, ← hg.vertices,
      ← hg.nextVertex_eq h]
    by_cases hv : v = g.nextVertex
    · rw [if_pos hv, hv, hnew]
      simp
    · rw [if_neg hv]
      simp [Ne.symm hv]
  size := by
    have hnodes : (g.addVertex tags).nodes.size = g.nodes.size + 1 := by
      rw [addVertex, toNat_nextVertex h, put_size, Array.size_push]
    rw [hnodes, Ledger.record, List.length_append, hg.size]
    rfl
  edges := hg.edges

theorem addEdge_error_iff (g : Graph) (source target : VertexId) (edgeType : String) :
    (∃ f, g.addEdge source target edgeType = .error f) ↔
      (g.node? source).isNone ∨ (g.node? target).isNone := by
  rw [addEdge]
  split
  · next hs => exact ⟨fun _ => Or.inl hs, fun _ => ⟨_, rfl⟩⟩
  · next hs =>
    split
    · next ht => exact ⟨fun _ => Or.inr ht, fun _ => ⟨_, rfl⟩⟩
    · next ht =>
      constructor
      · rintro ⟨f, hf⟩
        cases hf
      · rintro (h | h)
        · exact absurd h hs
        · exact absurd h ht

theorem Agrees.addEdge_error_iff {g : Graph} {l : Ledger} (h : g.Agrees l)
    (source target : VertexId) (edgeType : String) :
    (∃ f, g.addEdge source target edgeType = .error f) ↔ ¬ l.Has source ∨ ¬ l.Has target := by
  rw [Graph.addEdge_error_iff, h.has_iff, h.has_iff]
  simp only [Option.isNone_iff_eq_none, Option.isSome_iff_ne_none, ne_eq, not_not]

theorem size_nodes_addEdge {g g' : Graph} {source target : VertexId} {edgeType : String}
    (h : g.addEdge source target edgeType = .ok g') : g'.nodes.size = g.nodes.size := by
  rw [addEdge] at h
  split at h
  · cases h
  · split at h
    · cases h
    · cases h
      simp

theorem agrees_addEdge {g g' : Graph} {l : Ledger} (hg : g.Agrees l) (h : g.edges.size < 2 ^ 64)
    {source target : VertexId} {edgeType : String}
    (hadd : g.addEdge source target edgeType = .ok g') :
    g'.Agrees (l.record (.edge source target edgeType)) := by
  obtain ⟨hsource, htarget, hedges, -, hnode⟩ := addEdge_eq_ok hadd
  have hrecord : l.record (.edge source target edgeType)
      = { l with edges := l.edges ++ [⟨g.nextEdge, edgeType, source, target⟩] } := by
    rw [Ledger.record, if_pos ⟨(hg.has_iff source).mpr hsource, (hg.has_iff target).mpr htarget⟩,
      hg.nextEdge_eq h]
  rw [hrecord]
  refine ⟨fun v => ?_, ?_, ?_⟩
  · rw [vertex?, hnode, Option.map_map]
    exact hg.vertices v
  · rw [← hg.size]
    exact size_nodes_addEdge hadd
  · rw [hedges, toNat_nextEdge h, put_size, Array.toList_push, hg.edges]

/-- A refused edge is not written into the ledger either. -/
theorem record_of_refused {g : Graph} {l : Ledger} (hg : g.Agrees l) {source target : VertexId}
    {edgeType : String} {f : Fault} (h : g.addEdge source target edgeType = .error f) :
    l.record (.edge source target edgeType) = l := by
  have hmissing := (hg.addEdge_error_iff source target edgeType).mp ⟨f, h⟩
  rw [Ledger.record, if_neg]
  rintro ⟨hsource, htarget⟩
  rcases hmissing with hmissing | hmissing
  · exact hmissing hsource
  · exact hmissing htarget

theorem agrees_apply {g : Graph} {l : Ledger} (hg : g.Agrees l) (c : Change)
    (hv : c.isVertex → g.nodes.size < 2 ^ 64) (he : c.isEdge → g.edges.size < 2 ^ 64) :
    (c.apply g).Agrees (l.record c) := by
  cases c with
  | vertex tags => exact agrees_addVertex hg (hv rfl) tags
  | edge source target edgeType =>
    rw [Change.apply]
    cases hadd : g.addEdge source target edgeType with
    | ok g' => exact agrees_addEdge hg (he rfl) hadd
    | error f =>
      rw [record_of_refused hg hadd]
      exact hg

theorem build_append (before after : List Change) :
    build (before ++ after) = after.foldl Change.apply (build before) := List.foldl_append

theorem size_nodes_build_le (changes : List Change) :
    (build changes).nodes.size ≤ changes.countP Change.isVertex := by
  induction changes using List.reverseRecOn with
  | nil => exact Nat.le_refl 0
  | append_singleton changes c ih =>
    have hsize := size_nodes_apply_le (build changes) c
    rw [build_append, List.countP_append, List.countP_singleton]
    exact hsize.trans (Nat.add_le_add_right ih _)

theorem size_edges_build_le (changes : List Change) :
    (build changes).edges.size ≤ changes.countP Change.isEdge := by
  induction changes using List.reverseRecOn with
  | nil => exact Nat.le_refl 0
  | append_singleton changes c ih =>
    have hsize := size_edges_apply_le (build changes) c
    rw [build_append, List.countP_append, List.countP_singleton]
    exact hsize.trans (Nat.add_le_add_right ih _)

/-- **The graph that a run builds agrees with the ledger of the run**, while the numbers last. -/
theorem agrees_build {changes : List Change}
    (hvertices : changes.countP Change.isVertex ≤ 2 ^ 64)
    (hedges : changes.countP Change.isEdge ≤ 2 ^ 64) :
    (build changes).Agrees (.ofChanges changes) := by
  induction changes using List.reverseRecOn with
  | nil => exact ⟨fun v => by simp [build, vertex?, node?, empty, Ledger.ofChanges], rfl, rfl⟩
  | append_singleton changes c ih =>
    rw [List.countP_append, List.countP_singleton] at hvertices hedges
    have hnodes := size_nodes_build_le changes
    have hsize := size_edges_build_le changes
    rw [build_append, Ledger.ofChanges_concat]
    refine agrees_apply (ih (by omega) (by omega)) c (fun h => ?_) (fun h => ?_)
    · rw [if_pos h] at hvertices
      omega
    · rw [if_pos h] at hedges
      omega

/-! ### The cursors list what the ledger holds -/

end Graph

/-- The answer of a cursor to the call after `n` others. -/
def EdgeSource.answer {κ : Type} (src : EdgeSource κ) (c : κ) : Nat → Item
  | 0 => (src.next c).1
  | n + 1 => src.answer (src.next c).2 n

namespace Graph

theorem answer_nil (g : Graph) (edgeType : Option String) (n : Nat) :
    g.source.answer ⟨edgeType, []⟩ n = none := by
  induction n with
  | zero => rfl
  | succ n ih => exact ih

/-- A cursor whose edges are all there gives them one by one, and the end ever after. -/
theorem answer_listed (g : Graph) (edgeType : Option String) {rest : List (EdgeId × Bool)}
    (h : ∀ x ∈ rest, (g.edge? x.1).isSome) (n : Nat) :
    g.source.answer ⟨edgeType, rest⟩ n = (g.listed edgeType rest)[n]?.map .ok := by
  induction rest generalizing n with
  | nil => exact answer_nil g edgeType n
  | cons x rest ih =>
    obtain ⟨id, passLoop⟩ := x
    have ih' := ih fun x hx => h x (List.mem_cons_of_mem _ hx)
    obtain ⟨e, he⟩ := Option.isSome_iff_exists.mp (h (id, passLoop) (List.mem_cons_self ..))
    rw [listed_cons he]
    by_cases hgives : gives edgeType passLoop e
    · rw [if_pos hgives]
      cases n with
      | zero => rw [EdgeSource.answer, next_cons_of_gives he hgives]; rfl
      | succ n => rw [EdgeSource.answer, next_cons_of_gives he hgives, ih']; rfl
    · rw [if_neg hgives, ← ih']
      cases n <;> rw [EdgeSource.answer, EdgeSource.answer, next_cons_of_not_gives he hgives]

/-- The edges that a step admits at a vertex of the graph are those in the ledger. -/
theorem Agrees.incident_eq {g : Graph} {l : Ledger} (h : g.Agrees l) (v : VertexId)
    (edgeType : Option String) (d : Direction) :
    g.incident v ⟨edgeType, d⟩ = l.listing v edgeType d := by
  rw [incident, h.edges]
  cases d with
  | outgoing => rfl
  | incoming => rfl
  | both =>
    have hentering : (l.entering v edgeType).filter (·.source ≠ v)
        = (l.ofType edgeType).filter fun e => e.target = v && e.source ≠ v := by
      rw [Ledger.entering, List.filter_filter]
      simp only [Bool.and_comm]
    rw [Ledger.listing, hentering]
    rfl

/-- The cursors at a vertex list what a ledger holds of it, for one type or any type and in one
direction. -/
structure ListsAt (g : Graph) (l : Ledger) (v : VertexId) (edgeType : Option String)
    (d : Direction) : Prop where
  /-- a cursor is refused just for a vertex that has not been added -/
  refused : ∀ f, g.source.openCursor v ⟨edgeType, d⟩ = .error f
    ↔ f = .vertexNotFound v ∧ ¬ l.Has v
  /-- a cursor gives the listed edges one by one, and the end ever after -/
  answers : ∀ c, g.source.openCursor v ⟨edgeType, d⟩ = .ok c → ∀ n,
    g.source.answer c n = (l.listing v edgeType d)[n]?.map .ok
  /-- no edge is listed twice -/
  once : (l.listing v edgeType d).Nodup
  /-- the edges of the type that lie in the direction are listed -/
  exactly : ∀ e, e ∈ l.listing v edgeType d
    ↔ e ∈ l.edges ∧ d.admits e v = true ∧ ∀ t, edgeType = some t → t = e.edgeType

/-- The cursors of an indexed graph list what a ledger holds with which the graph agrees. -/
theorem listsAt_of_agrees {g : Graph} (hg : g.Indexed) {l : Ledger} (h : g.Agrees l)
    (v : VertexId) (edgeType : Option String) (d : Direction) : g.ListsAt l v edgeType d where
  refused f := by
    rw [h.has_iff]
    cases hn : g.node? v with
    | none =>
      have hopen : g.source.openCursor v ⟨edgeType, d⟩ = .error (.vertexNotFound v) := by
        simp only [source, hn]
      rw [hopen]
      simp [eq_comm]
    | some n => simp [source, hn]
  answers c hc n := by
    cases hn : g.node? v with
    | none =>
      simp only [source, hn] at hc
      cases hc
    | some m =>
      simp only [source, hn] at hc
      cases hc
      rw [← h.incident_eq, ← listed_start hg hn]
      exact answer_listed g edgeType (isSome_edge?_of_adjacent hg.toClosed hn ⟨edgeType, d⟩) n
  once := by
    rw [← h.incident_eq]
    exact nodup_incident hg v ⟨edgeType, d⟩
  exactly e := by
    rw [← h.incident_eq, mem_incident, ← Array.mem_toList_iff, h.edges, EdgeStep.admits]
    cases edgeType <;> simp [and_comm]

/-- A refused edge leaves no trace: what is built with it is built without it. -/
theorem build_of_refused {before : List Change} {source target : VertexId} {edgeType : String}
    {f : Fault} (h : (build before).addEdge source target edgeType = .error f)
    (after : List Change) :
    build (before ++ .edge source target edgeType :: after) = build (before ++ after) := by
  rw [build_append, build_append, List.foldl_cons, Change.apply, h]

/-- **The cursors of the graph that a run builds list what the run has added**, and an edge that
is refused in the run, as one of its ends has not been added, leaves no trace. -/
theorem cursors_build {changes : List Change}
    (hvertices : changes.countP Change.isVertex ≤ 2 ^ 64)
    (hedges : changes.countP Change.isEdge ≤ 2 ^ 64) :
    (∀ v edgeType d, (build changes).ListsAt (.ofChanges changes) v edgeType d) ∧
    ∀ before source target edgeType after,
      changes = before ++ .edge source target edgeType :: after →
        ((∃ f, (build before).addEdge source target edgeType = .error f) ↔
          ¬ (Ledger.ofChanges before).Has source ∨ ¬ (Ledger.ofChanges before).Has target) ∧
        ((∃ f, (build before).addEdge source target edgeType = .error f) →
          build changes = build (before ++ after)) := by
  refine ⟨listsAt_of_agrees (indexed_build hvertices hedges) (agrees_build hvertices hedges), ?_⟩
  rintro before source target edgeType after rfl
  rw [List.countP_append] at hvertices hedges
  have hbefore : (build before).Agrees (.ofChanges before) :=
    agrees_build (Nat.le_of_add_right_le hvertices) (Nat.le_of_add_right_le hedges)
  refine ⟨hbefore.addEdge_error_iff source target edgeType, ?_⟩
  rintro ⟨f, hf⟩
  exact build_of_refused hf after

/-- A loop is listed once both ways, and an edge to a vertex that is missing is as if it had not
been asked for. -/
theorem cursors_build_loop :
    (∃ c, (build [.vertex [], .vertex [], .edge ⟨1⟩ ⟨0⟩ "A", .edge ⟨0⟩ ⟨2⟩ "A",
        .edge ⟨0⟩ ⟨0⟩ "B"]).source.openCursor ⟨0⟩ ⟨none, .both⟩ = .ok c ∧
      ∀ n, (build [.vertex [], .vertex [], .edge ⟨1⟩ ⟨0⟩ "A", .edge ⟨0⟩ ⟨2⟩ "A",
        .edge ⟨0⟩ ⟨0⟩ "B"]).source.answer c n
          = [⟨⟨1⟩, "B", ⟨0⟩, ⟨0⟩⟩, ⟨⟨0⟩, "A", ⟨1⟩, ⟨0⟩⟩][n]?.map .ok) ∧
    build [.vertex [], .vertex [], .edge ⟨1⟩ ⟨0⟩ "A", .edge ⟨0⟩ ⟨2⟩ "A", .edge ⟨0⟩ ⟨0⟩ "B"]
      = build [.vertex [], .vertex [], .edge ⟨1⟩ ⟨0⟩ "A", .edge ⟨0⟩ ⟨0⟩ "B"] := by
  obtain ⟨hlists, hrefused⟩ := @cursors_build
    [.vertex [], .vertex [], .edge ⟨1⟩ ⟨0⟩ "A", .edge ⟨0⟩ ⟨2⟩ "A", .edge ⟨0⟩ ⟨0⟩ "B"]
    (by decide) (by decide)
  refine ⟨⟨_, rfl, fun n => (hlists ⟨0⟩ none .both).answers _ rfl n⟩, ?_⟩
  refine (hrefused [.vertex [], .vertex [], .edge ⟨1⟩ ⟨0⟩ "A"] ⟨0⟩ ⟨2⟩ "A"
    [.edge ⟨0⟩ ⟨0⟩ "B"] rfl).2 ⟨.vertexNotFound ⟨2⟩, rfl⟩

end Graph

end WalkFilter
