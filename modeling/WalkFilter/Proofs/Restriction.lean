/-
The tags that a walk does not look at.

A plan asks of a vertex whether it carries the tags that its tag sequence
mentions.  If the other tags are taken away from a graph, the walk goes the
same way, and finds the same paths without those tags:

* **`mem_mentioned`** — a tag is mentioned when an alternative in a pattern of
  one of the rules asks for it;
* **`decide_restrict`** — no decision of a tag sequence changes;
* **`search_restrict`** — the walk over what is left of a graph finds what is
  left of its results;
* **`arcs_build`** — what a graph has of edges depends on the edges alone that
  were not refused;
* **`search_unmentioned`** — two graphs that differ in tags that are not
  mentioned, and in nothing else, give the same results up to those tags.
-/
import WalkFilter.Proofs.Alternatives
import WalkFilter.Proofs.Ledger
import WalkFilter.Proofs.Route

namespace WalkFilter

/-! ### The tags that are mentioned -/

/-- The tags in any of the alternatives. -/
def Pattern.mentioned : Pattern → List String
  | all => []
  | anyOf alternatives => alternatives.toList.flatMap (·.toList)

def TagRule.mentioned (r : TagRule) : List String :=
  r.whitelist.mentioned ++ r.blacklist.mentioned ++ r.endVertices.mentioned
    ++ r.terminators.mentioned

def TagSequence.mentioned (s : TagSequence) : List String :=
  s.rules.positions.flatMap TagRule.mentioned

/-- The tags in the tag sequence of a plan. -/
def Plan.mentioned (plan : Plan) : List String :=
  plan.evaluator.tagSequence?.elim [] TagSequence.mentioned

theorem Pattern.mem_mentioned {p : Pattern} {tag : String} :
    tag ∈ p.mentioned ↔ ∃ asked, p.Lists asked ∧ tag ∈ asked := by
  cases p with
  | all => simp [mentioned, Lists]
  | anyOf alternatives => exact List.mem_flatMap

theorem TagRule.mem_mentioned {r : TagRule} {tag : String} :
    tag ∈ r.mentioned ↔ ∃ role, tag ∈ (r.pattern role).mentioned := by
  simp only [mentioned, List.mem_append]
  constructor
  · rintro (((h | h) | h) | h)
    · exact ⟨.whitelist, h⟩
    · exact ⟨.blacklist, h⟩
    · exact ⟨.endVertex, h⟩
    · exact ⟨.terminator, h⟩
  · rintro ⟨role, h⟩
    cases role <;> simp only [pattern] at h <;> tauto

/-- A tag is mentioned when an alternative in a pattern of one of the rules asks for it. -/
theorem TagSequence.mem_mentioned {s : TagSequence} {tag : String} :
    tag ∈ s.mentioned ↔
      ∃ r ∈ s.rules.positions, ∃ role asked, (r.pattern role).Lists asked ∧ tag ∈ asked := by
  simp only [mentioned, List.mem_flatMap, TagRule.mem_mentioned, Pattern.mem_mentioned]

/-! ### Taking tags away -/

/-- The tags of a set that are among some names. -/
def TagSet.restrict (names : List String) (carried : TagSet) : TagSet :=
  ⟨carried.toList.filter (· ∈ names), carried.ascending.filter _⟩

/-- The vertex without the tags that are not among the names. -/
def Vertex.restrict (names : List String) (v : Vertex) : Vertex :=
  { v with tags := TagSet.restrict names v.tags }

def Path.restrict (names : List String) : Path → Path
  | start v => start (v.restrict names)
  | hop p e v => hop (p.restrict names) e (v.restrict names)

def Node.restrict (names : List String) (n : Node) : Node :=
  { n with tags := TagSet.restrict names n.tags }

/-- The graph without the tags that are not among the names. -/
def Graph.restrict (names : List String) (g : Graph) : Graph :=
  { g with nodes := g.nodes.map (Node.restrict names) }

variable {names : List String}

theorem TagSet.mem_restrict {carried : TagSet} {tag : String} :
    tag ∈ restrict names carried ↔ tag ∈ carried ∧ tag ∈ names := by
  rw [← SortedSet.mem_toList, restrict, List.mem_filter, decide_eq_true_eq, SortedSet.mem_toList]

theorem TagSet.restrict_eq_restrict_iff {carried carried' : TagSet} :
    restrict names carried = restrict names carried' ↔
      ∀ tag ∈ names, tag ∈ carried ↔ tag ∈ carried' := by
  constructor
  · intro h tag hn
    have hmem : tag ∈ restrict names carried ↔ tag ∈ restrict names carried' := by rw [h]
    rwa [mem_restrict, mem_restrict, and_iff_left hn, and_iff_left hn] at hmem
  · intro h
    refine SortedSet.ext fun tag => ?_
    rw [mem_restrict, mem_restrict]
    exact and_congr_left fun hn => h tag hn

@[simp] theorem Vertex.id_restrict (v : Vertex) : (v.restrict names).id = v.id := rfl

@[simp] theorem Path.last_restrict (p : Path) :
    (p.restrict names).last = p.last.restrict names := by
  cases p <;> rfl

@[simp] theorem Path.length_restrict (p : Path) : (p.restrict names).length = p.length := by
  induction p with
  | start v => rfl
  | hop p e v ih => rw [restrict, length, length, ih]

@[simp] theorem Path.walks_restrict (p : Path) (id : EdgeId) :
    (p.restrict names).walks id = p.walks id := by
  induction p with
  | start v => rfl
  | hop p e v ih => rw [restrict, walks, walks, ih]

/-! ### Decisions -/

theorem Pattern.accepts_restrict {p : Pattern} (h : p.mentioned ⊆ names) (carried : TagSet) :
    p.accepts (TagSet.restrict names carried) = p.accepts carried := by
  cases p with
  | all => rfl
  | anyOf alternatives =>
    have hcarried : ∀ asked ∈ alternatives.toList, ∀ tag ∈ asked.toList,
        tag ∈ TagSet.restrict names carried ↔ tag ∈ carried := by
      intro asked hasked tag htag
      rw [TagSet.mem_restrict, and_iff_left (h (List.mem_flatMap.mpr ⟨asked, hasked, htag⟩))]
    rw [Bool.eq_iff_iff]
    simp only [accepts, List.any_eq_true, List.all_eq_true, decide_eq_true_eq]
    refine exists_congr fun asked => and_congr_right fun hasked => ?_
    exact forall₂_congr fun tag htag => hcarried asked hasked tag htag

/-- A rule sees nothing of a vertex but which of its patterns accept it. -/
theorem TagRule.decide_congr {r : TagRule} {carried carried' : TagSet}
    (h : ∀ role, (r.pattern role).accepts carried = (r.pattern role).accepts carried')
    (belowMin : Bool) : r.decide carried belowMin = r.decide carried' belowMin := by
  have hwhite := h .whitelist
  have hblack := h .blacklist
  have hend := h .endVertex
  have hterminator := h .terminator
  simp only [pattern] at hwhite hblack hend hterminator
  rw [decide, decide, hwhite, hblack, hend, hterminator]

theorem TagRule.decide_restrict {r : TagRule} (h : r.mentioned ⊆ names) (carried : TagSet)
    (belowMin : Bool) :
    r.decide (TagSet.restrict names carried) belowMin = r.decide carried belowMin := by
  refine decide_congr (fun role => ?_) belowMin
  have hrole : (r.pattern role).mentioned ⊆ names := by
    intro tag ht
    exact h (mem_mentioned.mpr ⟨role, ht⟩)
  exact Pattern.accepts_restrict hrole carried

theorem DepthCycle.mem_of_at?_eq_some {α : Type} {c : DepthCycle α} {depth : Nat} {a : α}
    (h : c.at? depth = some a) : a ∈ c.positions := by
  obtain ⟨i, -, hi⟩ := Option.bind_eq_some_iff.mp h
  exact List.mem_of_getElem? hi

/-- **A tag sequence decides alike without the tags that it does not mention.** -/
theorem TagSequence.decide_restrict {s : TagSequence} (h : s.mentioned ⊆ names) (depth : Nat)
    (v : Vertex) : s.decide depth (v.restrict names) = s.decide depth v := by
  rw [decide, decide]
  split
  · rfl
  · split
    · rfl
    · next rule hat =>
      have hmember := DepthCycle.mem_of_at?_eq_some hat
      have hrule : rule.mentioned ⊆ names := by
        intro tag ht
        exact h (List.mem_flatMap.mpr ⟨rule, hmember, ht⟩)
      exact TagRule.decide_restrict hrule v.tags _

/-- The plan looks at no other tags. -/
def Plan.Reads (plan : Plan) (names : List String) : Prop :=
  ∀ depth v, plan.evaluator.decide depth (v.restrict names) = plan.evaluator.decide depth v

/-- A plan looks at the tags that it mentions.  The lists of its request look at none. -/
theorem Request.reads_plan (q : Request) : q.plan.Reads q.plan.mentioned := by
  intro depth v
  have hmentioned : q.tagSequence.mentioned ⊆ q.plan.mentioned := by
    rw [Plan.mentioned, tagSequence?_plan]
    exact List.Subset.refl _
  rw [decide_plan, decide_plan, TagSequence.decide_restrict hmentioned, Vertex.id_restrict]

/-! ### Graphs -/

namespace Graph

theorem node?_restrict (g : Graph) (v : VertexId) :
    (g.restrict names).node? v = (g.node? v).map (Node.restrict names) := Array.getElem?_map

theorem vertex?_restrict (g : Graph) (v : VertexId) :
    (g.restrict names).vertex? v = (g.vertex? v).map (Vertex.restrict names) := by
  rw [vertex?, node?_restrict, Option.map_map, vertex?, Option.map_map]
  rfl

theorem closed_restrict {g : Graph} (hg : g.Closed) : (g.restrict names).Closed where
  ends e he := by
    rw [node?_restrict, node?_restrict, Option.isSome_map, Option.isSome_map]
    exact hg.ends e he
  listed v n hn id hid := by
    rw [node?_restrict] at hn
    obtain ⟨m, hm, rfl⟩ := Option.map_eq_some_iff.mp hn
    exact hg.listed v m hm id hid

theorem edgesAt_restrict (g : Graph) (v : VertexId) (steps : List EdgeStep) :
    (g.restrict names).edgesAt v steps = g.edgesAt v steps := by
  rw [edgesAt, edgesAt, node?_restrict]
  cases g.node? v with
  | none => rfl
  | some n =>
    refine List.flatMap_congr fun s _ => ?_
    have hstart : Cursor.start g.edgeTypes (n.restrict names) s = Cursor.start g.edgeTypes n s := by
      rw [Cursor.start, Cursor.start]
      cases s.direction <;> rfl
    show g.listed s.edgeType (Cursor.start g.edgeTypes (n.restrict names) s).rest = _
    rw [hstart]

end Graph

/-! ### Walks -/

theorem Path.along?_restrict (g : Graph) (p : Path) (e : Edge) :
    (p.restrict names).along? (g.restrict names) e = (p.along? g e).map (restrict names) := by
  rw [along?, along?, walks_restrict, last_restrict, Vertex.id_restrict]
  split
  · rfl
  · cases e.other p.last.id with
    | none => rfl
    | some w =>
      rw [Option.bind_some, Option.bind_some, Graph.vertex?_restrict, Option.map_map,
        Option.map_map]
      rfl

namespace Plan.Reads

variable {plan : Plan}

theorem decidePath_restrict (h : plan.Reads names) (p : Path) :
    plan.evaluator.decidePath (p.restrict names) = plan.evaluator.decidePath p := by
  rw [Evaluator.decidePath, Evaluator.decidePath, Path.last_restrict, Path.length_restrict, h]

theorem reports_restrict (h : plan.Reads names) (p : Path) :
    plan.reports (p.restrict names) = plan.reports p := by
  rw [reports, reports, h.decidePath_restrict, Path.length_restrict]

theorem lengthens_restrict (h : plan.Reads names) (p : Path) :
    plan.lengthens (p.restrict names) = plan.lengthens p := by
  rw [lengthens, lengthens, h.decidePath_restrict, Path.length_restrict]

theorem longer_restrict (h : plan.Reads names) (g : Graph) (p : Path) :
    plan.longer (g.restrict names) (p.restrict names)
      = (plan.longer g p).map (Path.restrict names) := by
  rw [longer, longer, h.lengthens_restrict]
  split
  · rw [Graph.edgesAt_restrict, Path.last_restrict, Vertex.id_restrict, Path.length_restrict,
      List.map_filterMap]
    exact List.filterMap_congr fun e _ => Path.along?_restrict g p e
  · rfl

end Plan.Reads

namespace Search

/-- The paths of a generation without the tags that are not among the names. -/
def Generation.restrict (names : List String) (s : Generation) : Generation :=
  { s with paths := s.paths.map (Path.restrict names) }

theorem keep_restrict (once : Bool) (l : List Path) (visited : List VertexId) :
    keep once (l.map (Path.restrict names)) visited = (keep once l visited).restrict names := by
  induction l generalizing visited with
  | nil => rfl
  | cons p rest ih =>
    rw [List.map_cons, keep, keep, Path.last_restrict, Vertex.id_restrict]
    split
    · exact ih visited
    · rw [ih]
      rfl

theorem grow_restrict {plan : Plan} (h : plan.Reads names) (g : Graph) (s : Generation) :
    grow (g.restrict names) plan (s.restrict names) = (grow g plan s).restrict names := by
  have hlonger : (s.paths.map (Path.restrict names)).flatMap (plan.longer (g.restrict names))
      = (s.paths.flatMap (plan.longer g)).map (Path.restrict names) := by
    rw [List.flatMap_map, List.map_flatMap]
    exact List.flatMap_congr fun p _ => h.longer_restrict g p
  rw [grow, Generation.restrict, hlonger, keep_restrict, grow]

theorem generation_restrict {plan : Plan} (h : plan.Reads names) (g : Graph) (v : Vertex)
    (n : Nat) :
    generation (g.restrict names) plan (v.restrict names) n
      = (generation g plan v n).restrict names := by
  have hstep : Function.Semiconj (Generation.restrict names) (grow g plan)
      (grow (g.restrict names) plan) := fun s => (grow_restrict h g s).symm
  exact (hstep.iterate_right n ⟨[.start v], [v.id]⟩).symm

end Search

theorem Plan.cut_map (plan : Plan) (found : Nat) (f : Path → Path) (results : List Path) :
    plan.cut found (results.map f) = (plan.cut found results).map f := by
  rw [cut, cut]
  split
  · rfl
  · rw [List.map_take]

/-- **The walk over what is left of a graph finds what is left of its results**, if the tags are
left that the plan looks at. -/
theorem search_restrict {g : Graph} (hg : g.Closed) {plan : Plan} (h : plan.Reads names)
    (start : VertexId) :
    search (g.restrict names) plan start
      = (search g plan start).map (List.map (Path.restrict names)) := by
  cases hv : g.vertex? start with
  | none =>
    have hleft : (g.restrict names).vertex? start = none := by
      rw [Graph.vertex?_restrict, hv, Option.map_none]
    rw [search, search, hv, hleft]
    rfl
  | some v =>
    have hleft : (g.restrict names).vertex? start = some (v.restrict names) := by
      rw [Graph.vertex?_restrict, hv, Option.map_some]
    rw [search_eq (Graph.closed_restrict hg) plan hleft, search_eq hg plan hv, Except.map,
      ← Plan.cut_map, List.map_flatMap]
    refine congrArg (Except.ok ∘ plan.cut 0) (List.flatMap_congr fun n _ => ?_)
    rw [Search.generation_restrict h, Search.Generation.restrict, List.filter_map]
    exact congrArg _ (List.filter_congr fun p _ => h.reports_restrict p)

/-! ### Graphs that differ in tags -/

namespace Graph

/-- What a graph has of edges, whatever its vertices carry. -/
structure Arcs where
  edges : Array Edge
  edgeTypes : SortedSet String
  leaving : VertexId → Array EdgeId
  entering : VertexId → Array EdgeId

def arcs (g : Graph) : Arcs where
  edges := g.edges
  edgeTypes := g.edgeTypes
  leaving v := (g.node? v).elim #[] (·.leaving)
  entering v := (g.node? v).elim #[] (·.entering)

/-- One more edge under the next number. -/
def Arcs.add (a : Arcs) : Change → Arcs
  | .vertex _ => a
  | .edge source target edgeType =>
    let id : EdgeId := ⟨number a.edges.size⟩
    { edges := put a.edges id.val.toNat ⟨id, edgeType, source, target⟩
      edgeTypes := a.edgeTypes.insert edgeType
      leaving v := if v = source then (a.leaving v).push id else a.leaving v
      entering v := if v = target then (a.entering v).push id else a.entering v }

/-- Of the calls of a run those that add an edge to the graph. -/
def acceptedFrom (g : Graph) : List Change → List Change
  | [] => []
  | .vertex tags :: rest => acceptedFrom (g.addVertex tags) rest
  | .edge source target edgeType :: rest =>
    match g.addEdge source target edgeType with
    | .ok g' => .edge source target edgeType :: acceptedFrom g' rest
    | .error _ => acceptedFrom g rest

/-- The edges that a run has added, without the calls that were refused. -/
def accepted (changes : List Change) : List Change := acceptedFrom empty changes

theorem arcs_addVertex (g : Graph) (tags : List String) : (g.addVertex tags).arcs = g.arcs := by
  have hnode : ∀ v (f : Node → Array EdgeId), f ⟨.empty, #[], #[]⟩ = #[] →
      (∀ n carried, f { n with tags := carried } = f n) →
      ((g.addVertex tags).node? v).elim #[] f = (g.node? v).elim #[] f := by
    intro v f hnew htags
    rw [node?_addVertex]
    split
    · cases g.node? v with
      | none => exact (htags _ _).trans hnew
      | some n => exact htags _ _
    · rfl
  rw [arcs, arcs, edges_addVertex]
  simp only [hnode _ (·.leaving) rfl fun _ _ => rfl, hnode _ (·.entering) rfl fun _ _ => rfl]
  rfl

/-- An edge is listed for a vertex that is there. -/
theorem elim_map_push {o : Option Node} {f : Node → Array EdgeId} {add : Node → Node} {c : Prop}
    [Decidable c] {id : EdgeId} (hc : c → o.isSome)
    (hadd : ∀ n, f (add n) = if c then (f n).push id else f n) :
    (o.map add).elim #[] f = if c then (o.elim #[] f).push id else o.elim #[] f := by
  cases o with
  | none =>
    rw [if_neg fun h => Bool.false_ne_true (hc h)]
    rfl
  | some n => exact hadd n

theorem arcs_addEdge {g g' : Graph} {source target : VertexId} {edgeType : String}
    (h : g.addEdge source target edgeType = .ok g') :
    g'.arcs = g.arcs.add (.edge source target edgeType) := by
  obtain ⟨hsource, htarget, hedges, htypes, hnode⟩ := addEdge_eq_ok h
  have hleaving : ∀ v, (g'.node? v).elim #[] (·.leaving)
      = if v = source then ((g.node? v).elim #[] (·.leaving)).push g.nextEdge
        else (g.node? v).elim #[] (·.leaving) := fun v =>
    hnode v ▸ elim_map_push (fun hv => hv ▸ hsource) fun n => rfl
  have hentering : ∀ v, (g'.node? v).elim #[] (·.entering)
      = if v = target then ((g.node? v).elim #[] (·.entering)).push g.nextEdge
        else (g.node? v).elim #[] (·.entering) := fun v =>
    hnode v ▸ elim_map_push (fun hv => hv ▸ htarget) fun n => rfl
  rw [arcs, hedges, htypes]
  simp only [hleaving, hentering]
  rfl

/-- **What a graph has of edges comes from the edges that a run has added.** -/
theorem arcs_build (changes : List Change) :
    (build changes).arcs = (accepted changes).foldl Arcs.add empty.arcs := by
  have hrun : ∀ g : Graph, (changes.foldl Change.apply g).arcs
      = (acceptedFrom g changes).foldl Arcs.add g.arcs := by
    induction changes with
    | nil => exact fun g => rfl
    | cons c rest ih =>
      intro g
      cases c with
      | vertex tags => rw [List.foldl_cons, Change.apply, ih, arcs_addVertex, acceptedFrom]
      | edge source target edgeType =>
        rw [List.foldl_cons, Change.apply, acceptedFrom]
        cases hadd : g.addEdge source target edgeType with
        | ok g' => exact (ih g').trans (by rw [List.foldl_cons, ← arcs_addEdge hadd])
        | error f => exact ih g
  exact hrun empty

/-- As many vertices are there as have been added, until all numbers are given. -/
theorem size_nodes_build (changes : List Change) :
    (build changes).nodes.size = min (changes.countP Change.isVertex) (2 ^ 64) := by
  induction changes using List.reverseRecOn with
  | nil => rfl
  | append_singleton changes c ih =>
    rw [build_append, List.countP_append, List.countP_singleton]
    cases c with
    | vertex tags =>
      show (put _ _ _).size = min (_ + 1) _
      rw [size_put, nextVertex, toNat_number]
      simp only [UInt64.size]
      split <;> omega
    | edge source target edgeType =>
      show (Change.apply (build changes) (.edge source target edgeType)).nodes.size = min (_ + 0) _
      rw [Nat.add_zero, ← ih, Change.apply]
      cases hadd : (build changes).addEdge source target edgeType with
      | ok g' => exact size_nodes_addEdge hadd
      | error f => rfl

theorem lt_size_of_vertex? {g : Graph} {v : VertexId} {x : Vertex} (h : g.vertex? v = some x) :
    v.val.toNat < g.nodes.size := by
  obtain ⟨n, hn, -⟩ := Option.map_eq_some_iff.mp h
  exact (Array.getElem?_eq_some_iff.mp hn).1

/-- Two graphs are left with the same if they have as many vertices and the same of edges, and
each vertex carries the same of the tags that are left. -/
theorem restrict_eq_restrict {g g' : Graph} (hsize : g.nodes.size = g'.nodes.size)
    (hle : g.nodes.size ≤ 2 ^ 64) (harcs : g.arcs = g'.arcs)
    (htags : ∀ v x x', g.vertex? v = some x → g'.vertex? v = some x' →
      ∀ tag ∈ names, tag ∈ x.tags ↔ tag ∈ x'.tags) :
    g.restrict names = g'.restrict names := by
  have hnodes : g.nodes.map (Node.restrict names) = g'.nodes.map (Node.restrict names) := by
    refine Array.ext (by simpa using hsize) fun i hleft hleft' => ?_
    have hi : i < g.nodes.size := by simpa using hleft
    have hi' : i < g'.nodes.size := by simpa using hleft'
    have hnumber : (UInt64.ofNat i).toNat = i :=
      UInt64.toNat_ofNat_of_lt' (Nat.lt_of_lt_of_le hi hle)
    have hn : g.node? ⟨.ofNat i⟩ = some g.nodes[i] := by
      rw [node?, hnumber, Array.getElem?_eq_getElem hi]
    have hn' : g'.node? ⟨.ofNat i⟩ = some g'.nodes[i] := by
      rw [node?, hnumber, Array.getElem?_eq_getElem hi']
    have hleaving := congrFun (congrArg Arcs.leaving harcs) ⟨.ofNat i⟩
    have hentering := congrFun (congrArg Arcs.entering harcs) ⟨.ofNat i⟩
    simp only [arcs, hn, hn', Option.elim_some] at hleaving hentering
    have hcarried := TagSet.restrict_eq_restrict_iff.mpr
      (htags ⟨.ofNat i⟩ ⟨_, g.nodes[i].tags⟩ ⟨_, g'.nodes[i].tags⟩
        (by rw [vertex?, hn]; rfl) (by rw [vertex?, hn']; rfl))
    rw [Array.getElem_map, Array.getElem_map, Node.restrict, Node.restrict, hleaving, hentering]
    exact congrArg (Node.mk · _ _) hcarried
  have hedges : g.edges = g'.edges := congrArg Arcs.edges harcs
  have htypes : g.edgeTypes = g'.edgeTypes := congrArg Arcs.edgeTypes harcs
  rw [restrict, restrict, hnodes, hedges, htypes]

end Graph

/-- **Tags that a request does not mention do not influence its walk.**  Let two runs add as many
vertices and the same edges, and let each vertex carry the same of the tags that the plan mentions.
Then the walks from any start find the same paths up to the other tags, in the same order and as
often.  A start that is not there is refused by both, and no other start is. -/
theorem search_unmentioned {q : Request} {plan : Plan} (hq : q.compile = .ok plan)
    {changes changes' : List Graph.Change}
    (hvertices : changes.countP Graph.Change.isVertex = changes'.countP Graph.Change.isVertex)
    (hedges : Graph.accepted changes = Graph.accepted changes')
    (htags : ∀ v x x', (Graph.build changes).vertex? v = some x →
      (Graph.build changes').vertex? v = some x' →
        ∀ tag ∈ plan.mentioned, tag ∈ x.tags ↔ tag ∈ x'.tags) (start : VertexId) :
    (search (Graph.build changes) plan start).map (List.map (Path.restrict plan.mentioned))
        = (search (Graph.build changes') plan start).map
            (List.map (Path.restrict plan.mentioned)) ∧
      (((Graph.build changes).vertex? start).isSome →
        ∃ results, search (Graph.build changes) plan start = .ok results) := by
  obtain ⟨-, rfl⟩ := Request.compile_eq_ok_iff.mp hq
  constructor
  · have hsize := Graph.size_nodes_build changes
    have hsize' := Graph.size_nodes_build changes'
    have harcs : (Graph.build changes).arcs = (Graph.build changes').arcs := by
      rw [Graph.arcs_build, Graph.arcs_build, hedges]
    have hleft := Graph.restrict_eq_restrict (by rw [hsize, hsize', hvertices]) (by omega) harcs
      htags
    rw [← search_restrict (Graph.closed_build changes) q.reads_plan,
      ← search_restrict (Graph.closed_build changes') q.reads_plan, hleft]
  · intro hstart
    obtain ⟨v, hv⟩ := Option.isSome_iff_exists.mp hstart
    exact ⟨_, search_eq (Graph.closed_build changes) q.plan hv⟩

/-- More tags and an edge that is refused at first: the path that is found is the one that is found
without them. -/
theorem search_unmentioned_draft :
    (search (Graph.build [.vertex ["Actor", "Draft"], .edge ⟨0⟩ ⟨1⟩ "IN", .vertex ["Draft", "Film"],
        .edge ⟨0⟩ ⟨1⟩ "IN"]) (Request.plan { tagFilter := some "Actor,>Film" }) ⟨0⟩).map
          (List.map (Path.restrict ["Actor", "Film"]))
      = .ok [.hop (.start ⟨⟨0⟩, .ofList ["Actor"]⟩) ⟨⟨0⟩, "IN", ⟨0⟩, ⟨1⟩⟩
          ⟨⟨1⟩, .ofList ["Film"]⟩] := by
  have hmentioned : (Request.plan { tagFilter := some "Actor,>Film" }).mentioned
      = ["Actor", "Film"] := by decide +kernel
  have htags : ∀ v x x',
      (Graph.build [.vertex ["Actor"], .vertex ["Film"], .edge ⟨0⟩ ⟨1⟩ "IN"]).vertex? v = some x →
      (Graph.build [.vertex ["Actor", "Draft"], .edge ⟨0⟩ ⟨1⟩ "IN", .vertex ["Draft", "Film"],
        .edge ⟨0⟩ ⟨1⟩ "IN"]).vertex? v = some x' →
      ∀ tag ∈ ["Actor", "Film"], tag ∈ x.tags ↔ tag ∈ x'.tags := by
    intro v x x' hx hx'
    have hlt : v.val.toNat < 2 := Graph.lt_size_of_vertex? hx
    obtain hv | hv : v.val.toNat = 0 ∨ v.val.toNat = 1 := by omega
    · obtain rfl : v = ⟨0⟩ := VertexId.toNat_inj.mp hv
      cases hx
      cases hx'
      decide
    · obtain rfl : v = ⟨1⟩ := VertexId.toNat_inj.mp hv
      cases hx
      cases hx'
      decide
  have hsame := (@search_unmentioned { tagFilter := some "Actor,>Film" } _ rfl
    [.vertex ["Actor"], .vertex ["Film"], .edge ⟨0⟩ ⟨1⟩ "IN"]
    [.vertex ["Actor", "Draft"], .edge ⟨0⟩ ⟨1⟩ "IN", .vertex ["Draft", "Film"],
      .edge ⟨0⟩ ⟨1⟩ "IN"] (by decide) (by decide) (hmentioned ▸ htags) ⟨0⟩).1
  rw [hmentioned] at hsame
  rw [← hsame, search_eq (Graph.closed_build _) _ (v := ⟨⟨0⟩, .ofList ["Actor"]⟩) (by decide)]
  decide +kernel

end WalkFilter
