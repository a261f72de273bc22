/-
What a graph lists at a vertex.

Over a graph in which nothing is missing no cursor fails, and the edges that
an expansion gives are `edgesAt`.  Where the edges are indexed these are, step
by step, the edges that the step admits:

* **`edgesOf_eq`** — an expansion over a closed graph gives `edgesAt`;
* **`edgesAt_eq`** — over an indexed graph these are the edges `incident` to
  each step in turn;
* **`count_edgesAt`** — each edge is given once for every step that admits it.
-/
import WalkFilter.Proofs.Build

namespace WalkFilter

namespace Graph

/-- Does a cursor for this type give an edge that it looks up? -/
def gives (edgeType : Option String) (passLoop : Bool) (e : Edge) : Bool :=
  !((passLoop && e.source = e.target) || !edgeType.all (· = e.edgeType))

/-- The edges that a cursor gives of those that it has still to look up. -/
def listed (g : Graph) (edgeType : Option String) (rest : List (EdgeId × Bool)) : List Edge :=
  rest.filterMap fun x => (g.edge? x.1).filter (gives edgeType x.2)

/-- The edges that the cursors of the steps give, one step after the other. -/
def edgesAt (g : Graph) (v : VertexId) (steps : List EdgeStep) : List Edge :=
  match g.node? v with
  | none => []
  | some n => steps.flatMap fun s => g.listed s.edgeType (Cursor.start g.edgeTypes n s).rest

/-- The edges that a step admits at a vertex, those that leave it first.  A loop is not among
the edges that enter its vertex from elsewhere. -/
def incident (g : Graph) (v : VertexId) (s : EdgeStep) : List Edge :=
  let edges := g.edges.toList.filter fun e => s.edgeType.all (· = e.edgeType)
  match s.direction with
  | .outgoing => edges.filter (·.source = v)
  | .incoming => edges.filter (·.target = v)
  | .both => edges.filter (·.source = v) ++ edges.filter fun e => e.target = v && e.source ≠ v

/-! ### No cursor fails -/

/-- A cursor gives the edge that it looks up first, unless it passes it over. -/
theorem next_cons_of_gives {g : Graph} {edgeType : Option String} {id : EdgeId} {passLoop : Bool}
    {e : Edge} (he : g.edge? id = some e) (hgives : gives edgeType passLoop e)
    (rest : List (EdgeId × Bool)) :
    g.source.next ⟨edgeType, (id, passLoop) :: rest⟩ = (some (.ok e), ⟨edgeType, rest⟩) := by
  simp only [source, scan, he]
  rw [if_neg (by simpa only [gives, Bool.not_eq_true', Bool.not_eq_true] using hgives)]

/-- An edge that is passed over leaves the cursor as if it had not been listed. -/
theorem next_cons_of_not_gives {g : Graph} {edgeType : Option String} {id : EdgeId}
    {passLoop : Bool} {e : Edge} (he : g.edge? id = some e) (hgives : ¬ gives edgeType passLoop e)
    (rest : List (EdgeId × Bool)) :
    g.source.next ⟨edgeType, (id, passLoop) :: rest⟩ = g.source.next ⟨edgeType, rest⟩ := by
  simp only [source, scan, he]
  rw [if_pos (by simpa only [gives, Bool.not_eq_true, Bool.not_eq_false'] using hgives)]

theorem listed_cons {g : Graph} {id : EdgeId} {e : Edge} (he : g.edge? id = some e)
    (edgeType : Option String) (passLoop : Bool) (rest : List (EdgeId × Bool)) :
    g.listed edgeType ((id, passLoop) :: rest)
      = if gives edgeType passLoop e then e :: g.listed edgeType rest
        else g.listed edgeType rest := by
  rw [listed, List.filterMap_cons, he, Option.filter_some]
  cases gives edgeType passLoop e <;> rfl

/-- A cursor whose edges are all there gives them without a fault. -/
theorem collect_eq (g : Graph) (edgeType : Option String) {rest : List (EdgeId × Bool)}
    (h : ∀ x ∈ rest, (g.edge? x.1).isSome) :
    g.source.collect ⟨edgeType, rest⟩ = .ok (g.listed edgeType rest) := by
  induction rest with
  | nil =>
    rw [FiniteSource.collect_unfold]
    rfl
  | cons x rest ih =>
    obtain ⟨id, passLoop⟩ := x
    have ih' := ih fun x hx => h x (List.mem_cons_of_mem _ hx)
    obtain ⟨e, he⟩ := Option.isSome_iff_exists.mp (h (id, passLoop) (List.mem_cons_self ..))
    rw [listed_cons he, FiniteSource.collect_unfold]
    by_cases hgives : gives edgeType passLoop e
    · rw [next_cons_of_gives he hgives, if_pos hgives]
      simp only [ih', Except.map]
    · rw [next_cons_of_not_gives he hgives, ← FiniteSource.collect_unfold, ih', if_neg hgives]

theorem isSome_edge?_of_adjacent {g : Graph} (hg : g.Closed) {v : VertexId} {n : Node}
    (hn : g.node? v = some n) (s : EdgeStep) :
    ∀ x ∈ (Cursor.start g.edgeTypes n s).rest, (g.edge? x.1).isSome := by
  intro x hx
  refine hg.listed v n hn x.1 ?_
  simp only [Cursor.start] at hx
  split at hx
  · cases hd : s.direction <;> simp only [Cursor.adjacent, hd] at hx <;> grind
  · simp at hx

/-- An expansion over a closed graph meets no fault. -/
theorem edgesOf_eq {g : Graph} (hg : g.Closed) {v : VertexId} (hv : (g.node? v).isSome)
    (steps : List EdgeStep) : g.source.edgesOf v steps = .ok (g.edgesAt v steps) := by
  obtain ⟨n, hn⟩ := Option.isSome_iff_exists.mp hv
  induction steps with
  | nil => simp [FiniteSource.edgesOf, edgesAt, hn]
  | cons s rest ih =>
    have hopen : g.source.openCursor v s = .ok (Cursor.start g.edgeTypes n s) := by
      simp only [source, hn]
    have hcollect : g.source.collect (Cursor.start g.edgeTypes n s)
        = .ok (g.listed s.edgeType (Cursor.start g.edgeTypes n s).rest) :=
      collect_eq g s.edgeType (isSome_edge?_of_adjacent hg hn s)
    simp [FiniteSource.edgesOf, hopen, ih, hcollect, Except.bind, Except.map, edgesAt, hn]

theorem mem_edges_of_mem_edgesAt {g : Graph} {v : VertexId} {steps : List EdgeStep} {e : Edge}
    (h : e ∈ g.edgesAt v steps) : e ∈ g.edges := by
  rw [edgesAt] at h
  split at h
  · simp at h
  · obtain ⟨s, -, h⟩ := List.mem_flatMap.mp h
    obtain ⟨x, -, hx⟩ := List.mem_filterMap.mp h
    exact Array.mem_of_getElem? (Option.filter_eq_some_iff.mp hx).1

/-! ### What the cursors of an indexed graph give -/

theorem Indexed.edge?_id {g : Graph} (hg : g.Indexed) {e : Edge} (he : e ∈ g.edges) :
    g.edge? e.id = some e := by
  obtain ⟨i, hi, rfl⟩ := Array.mem_iff_getElem.mp he
  have hnumber := hg.number i g.edges[i] (Array.getElem?_eq_getElem hi)
  rw [edge?, hnumber, Array.getElem?_eq_getElem hi]

/-- Two edges of an indexed graph do not share a number. -/
theorem Indexed.eq_of_id_eq {g : Graph} (hg : g.Indexed) {e e' : Edge} (he : e ∈ g.edges)
    (he' : e' ∈ g.edges) (hid : e.id = e'.id) : e = e' := by
  have h := hg.edge?_id he
  rw [hid, hg.edge?_id he'] at h
  exact (Option.some.inj h).symm

theorem Indexed.nodup_edges {g : Graph} (hg : g.Indexed) : g.edges.toList.Nodup := by
  have hrange : g.edges.toList.map (·.id.val.toNat) = List.range g.edges.size := by
    refine List.ext_getElem (by simp) fun i h _ => ?_
    have hi : i < g.edges.size := by simpa using h
    simpa using hg.number i g.edges[i] (Array.getElem?_eq_getElem hi)
  refine List.Nodup.of_map (·.id.val.toNat) ?_
  rw [hrange]
  exact List.nodup_range

/-- What is given of edges that are looked up by number. -/
theorem listed_ids {g : Graph} (hg : g.Indexed) (edgeType : Option String) (passLoop : Bool)
    {l : List Edge} (hl : ∀ e ∈ l, e ∈ g.edges) :
    g.listed edgeType ((l.map (·.id)).map (·, passLoop)) = l.filter (gives edgeType passLoop) := by
  induction l with
  | nil => rfl
  | cons e rest ih =>
    have he := hg.edge?_id (hl e (List.mem_cons_self ..))
    have ih' := ih fun e he => hl e (List.mem_cons_of_mem _ he)
    rw [listed] at ih' ⊢
    rw [List.map_cons, List.map_cons, List.filterMap_cons, he, ih', List.filter_cons,
      Option.filter_some]
    cases gives edgeType passLoop e <;> rfl

theorem listed_append (g : Graph) (edgeType : Option String) (l m : List (EdgeId × Bool)) :
    g.listed edgeType (l ++ m) = g.listed edgeType l ++ g.listed edgeType m :=
  List.filterMap_append

/-- A type that is not known is the type of no edge. -/
theorem incident_of_unknown {g : Graph} (hg : g.Indexed) (v : VertexId) {s : EdgeStep}
    (h : ¬ s.edgeType.all (· ∈ g.edgeTypes)) : g.incident v s = [] := by
  have hnone : (g.edges.toList.filter fun e => s.edgeType.all (· = e.edgeType)) = [] := by
    refine List.filter_eq_nil_iff.mpr fun e he htype => h ?_
    cases ht : s.edgeType with
    | none => rfl
    | some t =>
      rw [ht, Option.all_some, decide_eq_true_eq] at htype
      rw [Option.all_some, decide_eq_true_eq, htype]
      exact hg.known e (Array.mem_toList_iff.mp he)
  simp only [incident, hnone]
  cases s.direction <;> rfl

/-- **A cursor over an indexed graph gives the edges that its step admits at the vertex**, in
the order in which they were added, those that leave the vertex first. -/
theorem listed_start {g : Graph} (hg : g.Indexed) {v : VertexId} {n : Node}
    (hn : g.node? v = some n) (s : EdgeStep) :
    g.listed s.edgeType (Cursor.start g.edgeTypes n s).rest = g.incident v s := by
  by_cases hknown : s.edgeType.all (· ∈ g.edgeTypes)
  · have hleaving : ∀ e ∈ g.edges.toList.filter (·.source = v), e ∈ g.edges := fun e he =>
      Array.mem_toList_iff.mp (List.mem_filter.mp he).1
    have hentering : ∀ e ∈ g.edges.toList.filter (·.target = v), e ∈ g.edges := fun e he =>
      Array.mem_toList_iff.mp (List.mem_filter.mp he).1
    simp only [Cursor.start, hknown, if_true, incident]
    cases s.direction with
    | outgoing =>
      rw [Cursor.adjacent, hg.leaving v n hn, listed_ids hg _ _ hleaving, List.filter_comm]
      simp [gives]
    | incoming =>
      rw [Cursor.adjacent, hg.entering v n hn, listed_ids hg _ _ hentering, List.filter_comm]
      simp [gives]
    | both =>
      rw [Cursor.adjacent, listed_append, hg.leaving v n hn, hg.entering v n hn,
        listed_ids hg _ _ hleaving, listed_ids hg _ _ hentering, List.filter_comm]
      congr 1
      · simp [gives]
      · -- An edge that enters `v` is a loop when it leaves `v` too.
        rw [List.filter_filter, List.filter_filter]
        refine List.filter_congr fun e _ => ?_
        by_cases ht : e.target = v
        · simp [gives, ht, Bool.and_comm]
        · simp [ht]
  · rw [incident_of_unknown hg v hknown, Cursor.start, if_neg hknown]
    rfl

/-- The edges of an expansion over an indexed graph. -/
theorem edgesAt_eq {g : Graph} (hg : g.Indexed) {v : VertexId} (hv : (g.node? v).isSome)
    (steps : List EdgeStep) : g.edgesAt v steps = steps.flatMap (g.incident v) := by
  obtain ⟨n, hn⟩ := Option.isSome_iff_exists.mp hv
  simp only [edgesAt, hn, listed_start hg hn]

theorem mem_incident {g : Graph} {v : VertexId} {s : EdgeStep} {e : Edge} :
    e ∈ g.incident v s ↔ e ∈ g.edges ∧ s.admits e v := by
  unfold incident EdgeStep.admits Direction.admits
  cases s.direction <;>
    simp only [List.mem_append, List.mem_filter, Array.mem_toList_iff, Bool.and_eq_true,
      Bool.or_eq_true, decide_eq_true_eq] <;>
    tauto

theorem nodup_incident {g : Graph} (hg : g.Indexed) (v : VertexId) (s : EdgeStep) :
    (g.incident v s).Nodup := by
  have hnodup := hg.nodup_edges
  unfold incident
  cases s.direction with
  | outgoing => exact (hnodup.filter _).filter _
  | incoming => exact (hnodup.filter _).filter _
  | both =>
    refine List.Nodup.append ((hnodup.filter _).filter _) ((hnodup.filter _).filter _) ?_
    intro e hleaving hentering
    simp only [List.mem_filter, Bool.and_eq_true, decide_eq_true_eq] at hleaving hentering
    exact hentering.2.2 hleaving.2

/-- **Each edge is given once for every step that admits it.** -/
theorem count_edgesAt {g : Graph} (hg : g.Indexed) {v : VertexId} (hv : (g.node? v).isSome)
    (steps : List EdgeStep) {e : Edge} (he : e ∈ g.edges) :
    (g.edgesAt v steps).count e = steps.countP (·.admits e v) := by
  rw [edgesAt_eq hg hv]
  induction steps with
  | nil => rfl
  | cons s rest ih =>
    rw [List.flatMap_cons, List.count_append, ih, List.countP_cons, Nat.add_comm,
      (nodup_incident hg v s).count]
    simp only [mem_incident, he, true_and]

theorem mem_edgesAt {g : Graph} (hg : g.Indexed) {v : VertexId} (hv : (g.node? v).isSome)
    {steps : List EdgeStep} {e : Edge} :
    e ∈ g.edgesAt v steps ↔ e ∈ g.edges ∧ ∃ s ∈ steps, s.admits e v := by
  rw [edgesAt_eq hg hv, List.mem_flatMap]
  constructor
  · rintro ⟨s, hs, he⟩
    exact ⟨(mem_incident.mp he).1, s, hs, (mem_incident.mp he).2⟩
  · rintro ⟨he, s, hs, hadmits⟩
    exact ⟨s, hs, mem_incident.mpr ⟨he, hadmits⟩⟩

end Graph

end WalkFilter
