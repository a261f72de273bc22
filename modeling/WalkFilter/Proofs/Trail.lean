/-
Which paths a walk finds where a path may come back to a vertex.

A trail is a path over the graph that walks no edge twice, whose hops the
itinerary admits and none of whose proper beginnings ends the walk.  Where
vertices may be visited again generation `n` holds the trails of length `n`:

* **`count_generation`** — a trail is there once for each choice of steps that
  admit its hops;
* **`search_trails`** — the results of a walk are the trails that are long
  enough and included, that often, the shorter ones first.
-/
import WalkFilter.Proofs.Generation

namespace WalkFilter

namespace Path

/-- The paths that one has been, the start first, without itself. -/
def properPrefixes : Path → List Path
  | start _ => []
  | hop p _ _ => p.properPrefixes ++ [p]

/-- A hop over a graph: along an edge that a step for this depth admits, to its other end. -/
structure IsHop (g : Graph) (i : Itinerary) (p : Path) (e : Edge) (v : Vertex) : Prop where
  edge : e ∈ g.edges
  admitted : ∃ s ∈ i.stepsAt p.length, s.admits e p.last.id = true
  arrives : e.other p.last.id = some v.id
  vertex : g.vertex? v.id = some v

/-- The path begins in a vertex of the graph, and the itinerary admits each of its hops. -/
def Follows (g : Graph) (i : Itinerary) : Path → Prop
  | start v => g.vertex? v.id = some v
  | hop p e v => p.Follows g i ∧ p.IsHop g i e v

/-- The ways to choose for each hop a step that admits it. -/
def ways (i : Itinerary) : Path → Nat
  | start _ => 1
  | hop p e _ => p.ways i * (i.stepsAt p.length).countP (·.admits e p.last.id)

end Path

/-- A path from `v` that a walk may come to: no edge is walked twice, the hops are admitted, and
each proper beginning is shorter than the greatest length and goes on. -/
structure Plan.Trail (plan : Plan) (g : Graph) (v : Vertex) (p : Path) : Prop where
  first : p.first = v
  edges : (p.edges.map (·.id)).Nodup
  hops : p.Follows g plan.itinerary
  goesOn : ∀ r ∈ p.properPrefixes,
    (∀ m, plan.bounds.maxLevel = some m → r.length < m.toNat) ∧
      (plan.evaluator.decidePath r).continues = true

namespace Plan

variable {plan : Plan} {g : Graph} {v : Vertex}

theorem lengthens_iff {p : Path} :
    plan.lengthens p = true ↔
      (∀ m, plan.bounds.maxLevel = some m → p.length < m.toNat) ∧
        (plan.evaluator.decidePath p).continues = true := by
  unfold lengthens
  cases plan.bounds.maxLevel with
  | none => simp
  | some m => simp [and_comm]

theorem trail_start_iff {u : Vertex} :
    plan.Trail g v (.start u) ↔ u = v ∧ g.vertex? u.id = some u := by
  constructor
  · exact fun h => ⟨h.first, h.hops⟩
  · exact fun h => ⟨h.1, by simp, h.2, by simp [Path.properPrefixes]⟩

/-- A trail that is lengthened by an edge that it does not walk is a trail. -/
theorem trail_hop_iff {p : Path} {e : Edge} {w : Vertex} :
    plan.Trail g v (.hop p e w) ↔
      plan.Trail g v p ∧ plan.lengthens p = true ∧ p.walks e.id = false ∧
        p.IsHop g plan.itinerary e w := by
  have hwalks : p.walks e.id = false ↔ e.id ∉ p.edges.map (·.id) := by
    rw [Path.walks_eq_any, ← Bool.not_eq_true, List.any_eq_true]
    simp
  constructor
  · intro h
    have hedges := h.edges
    rw [Path.edges_hop, List.map_append, List.map_cons, List.map_nil,
      List.nodup_append] at hedges
    obtain ⟨hp, -, hnew⟩ := hedges
    refine ⟨⟨h.first, hp, h.hops.1, fun r hr => h.goesOn r (List.mem_append_left _ hr)⟩,
      lengthens_iff.mpr (h.goesOn p (List.mem_append_right _ (List.mem_singleton.mpr rfl))),
      hwalks.mpr fun he => hnew _ he _ (List.mem_singleton.mpr rfl) rfl, h.hops.2⟩
  · rintro ⟨hp, hlengthens, hnew, hhop⟩
    refine ⟨hp.first, ?_, ⟨hp.hops, hhop⟩, ?_⟩
    · rw [Path.edges_hop, List.map_append, List.map_cons, List.map_nil]
      refine List.nodup_append.mpr ⟨hp.edges, List.nodup_singleton _, ?_⟩
      intro a ha b hb hab
      rw [List.mem_singleton.mp hb] at hab
      exact hwalks.mp hnew (hab ▸ ha)
    · intro r hr
      rcases List.mem_append.mp hr with hr | hr
      · exact hp.goesOn r hr
      · rw [List.mem_singleton.mp hr]
        exact lengthens_iff.mp hlengthens

theorem endsIn_of_follows {i : Itinerary} {p : Path} (h : p.Follows g i) : p.EndsIn g := by
  cases p with
  | start u => exact h
  | hop p e w => exact h.2.vertex

end Plan

/-- Where only one element of a list gives `x`, `x` is there once for each time that the element
is in the list and `x` in what it gives. -/
theorem count_flatMap_of_ne {α β : Type} [DecidableEq α] [DecidableEq β] {l : List α}
    {f : α → List β} {a : α} {x : β} (h : ∀ b ∈ l, b ≠ a → x ∉ f b) :
    (l.flatMap f).count x = l.count a * (f a).count x := by
  induction l with
  | nil => simp
  | cons b rest ih =>
    rw [List.flatMap_cons, List.count_append, ih fun b hb => h b (List.mem_cons_of_mem _ hb),
      List.count_cons]
    by_cases hb : b = a
    · subst hb
      simp only [beq_self_eq_true, if_true]
      ring
    · rw [List.count_eq_zero_of_not_mem (h b (List.mem_cons_self ..) hb)]
      simp [hb]

namespace Search

variable {plan : Plan} {g : Graph} {v : Vertex}

theorem keep_false (l : List Path) (visited : List VertexId) :
    keep false l visited = ⟨l, visited⟩ := by
  induction l generalizing visited with
  | nil => rfl
  | cons q rest ih =>
    rw [keep, if_neg (by simp), ih]
    rfl

/-- Where vertices may be visited again nothing is left out of a generation. -/
theorem paths_generation_succ (h : plan.visitsOnce = false) (n : Nat) :
    (generation g plan v (n + 1)).paths
      = (generation g plan v n).paths.flatMap (plan.longer g) := by
  rw [generation_succ, grow, h, keep_false]

theorem hop_mem_longer_iff (hg : g.Indexed) {p : Path} (hp : p.EndsIn g) {e : Edge} {w : Vertex} :
    .hop p e w ∈ plan.longer g p ↔
      plan.lengthens p = true ∧ p.walks e.id = false ∧ p.IsHop g plan.itinerary e w := by
  have hnode := Graph.isSome_node?_of_vertex? hp
  constructor
  · intro h
    obtain ⟨e', w', heq, hlengthens, hwalks, he, hother, hw⟩ := mem_longer_cases h
    cases heq
    obtain ⟨hedge, hadmitted⟩ := (Graph.mem_edgesAt hg hnode).mp he
    exact ⟨hlengthens, hwalks, hedge, hadmitted, hother, hw⟩
  · rintro ⟨hlengthens, hwalks, hhop⟩
    rw [Plan.longer, if_pos hlengthens]
    exact List.mem_filterMap.mpr ⟨e, (Graph.mem_edgesAt hg hnode).mpr ⟨hhop.edge, hhop.admitted⟩,
      Path.along?_eq_some_iff.mpr ⟨hwalks, w, hhop.arrives, hhop.vertex, rfl⟩⟩

/-- A hop is among the paths that lengthen `p` once for each step that admits its edge. -/
theorem count_longer (hg : g.Indexed) {p : Path} (hp : p.EndsIn g) {e : Edge} {w : Vertex}
    (h : .hop p e w ∈ plan.longer g p) :
    (plan.longer g p).count (.hop p e w)
      = (plan.itinerary.stepsAt p.length).countP (·.admits e p.last.id) := by
  obtain ⟨hlengthens, hwalks, hhop⟩ := (hop_mem_longer_iff hg hp).mp h
  have halong : p.along? g e = some (.hop p e w) :=
    Path.along?_eq_some_iff.mpr ⟨hwalks, w, hhop.arrives, hhop.vertex, rfl⟩
  -- No other edge gives this hop.
  have hother : ∀ e' ∈ g.edgesAt p.last.id (plan.itinerary.stepsAt p.length),
      e' ≠ e → Path.hop p e w ∉ (p.along? g e').toList := by
    intro e' _ hne hmem
    obtain ⟨-, w', -, -, heq⟩ := Path.along?_eq_some_iff.mp (Option.mem_toList.mp hmem)
    cases heq
    exact hne rfl
  rw [Plan.longer, if_pos hlengthens, List.filterMap_eq_flatMap_toList,
    count_flatMap_of_ne hother,
    Graph.count_edgesAt hg (Graph.isSome_node?_of_vertex? hp) _ hhop.edge, halong]
  simp

/-- A path is among those that lengthen another one only if it is a hop from it. -/
theorem eq_of_hop_mem_longer {p q : Path} {e : Edge} {w : Vertex}
    (h : .hop p e w ∈ plan.longer g q) : q = p := by
  obtain ⟨e', w', heq, -⟩ := mem_longer_cases h
  cases heq
  rfl

/-- Generation `n` holds the trails of length `n`. -/
theorem mem_generation_iff (hg : g.Indexed) (hv : g.vertex? v.id = some v)
    (honce : plan.visitsOnce = false) {p : Path} {n : Nat} :
    p ∈ (generation g plan v n).paths ↔ plan.Trail g v p ∧ p.length = n := by
  induction p generalizing n with
  | start u =>
    rw [Plan.trail_start_iff]
    cases n with
    | zero =>
      rw [generation_zero, List.mem_singleton, Path.start.injEq]
      constructor
      · rintro rfl
        exact ⟨⟨rfl, hv⟩, rfl⟩
      · exact fun h => h.1.1
    | succ n =>
      rw [paths_generation_succ honce]
      constructor
      · intro h
        obtain ⟨q, -, hq⟩ := List.mem_flatMap.mp h
        obtain ⟨e, w, heq, -⟩ := mem_longer_cases hq
        cases heq
      · exact fun h => absurd h.2 (Nat.succ_ne_zero n).symm
  | hop p e w ih =>
    rw [Plan.trail_hop_iff]
    cases n with
    | zero => simp [generation_zero, Path.length]
    | succ n =>
      rw [paths_generation_succ honce]
      constructor
      · intro h
        obtain ⟨q, hq, hhop⟩ := List.mem_flatMap.mp h
        obtain rfl := eq_of_hop_mem_longer hhop
        obtain ⟨htrail, hlength⟩ := ih.mp hq
        exact ⟨⟨htrail, (hop_mem_longer_iff hg (Plan.endsIn_of_follows htrail.hops)).mp hhop⟩,
          congrArg (· + 1) hlength⟩
      · rintro ⟨⟨htrail, hhop⟩, hlength⟩
        exact List.mem_flatMap.mpr ⟨p, ih.mpr ⟨htrail, Nat.succ.inj hlength⟩,
          (hop_mem_longer_iff hg (Plan.endsIn_of_follows htrail.hops)).mpr hhop⟩

/-- **A trail is in its generation once for each choice of steps that admit its hops.** -/
theorem count_generation (hg : g.Indexed) (honce : plan.visitsOnce = false) {p : Path}
    (h : plan.Trail g v p) :
    (generation g plan v p.length).paths.count p = p.ways plan.itinerary := by
  induction p with
  | start u =>
    obtain ⟨rfl, -⟩ := Plan.trail_start_iff.mp h
    simp [generation_zero, Path.length, Path.ways]
  | hop p e w ih =>
    obtain ⟨htrail, hhop⟩ := Plan.trail_hop_iff.mp h
    have hends := Plan.endsIn_of_follows htrail.hops
    have hother : ∀ q ∈ (generation g plan v p.length).paths,
        q ≠ p → Path.hop p e w ∉ plan.longer g q :=
      fun q _ hne hmem => hne (eq_of_hop_mem_longer hmem)
    rw [Path.length, paths_generation_succ honce, count_flatMap_of_ne hother, ih htrail,
      count_longer hg hends ((hop_mem_longer_iff hg hends).mpr hhop), Path.ways]

theorem visitsOnce_eq_false {q : Request} {plan : Plan} (hq : q.compile = .ok plan)
    (hu : q.uniqueness ≠ .nodeGlobal) : plan.visitsOnce = false := by
  obtain ⟨-, rfl⟩ := Request.compile_eq_ok_iff.mp hq
  exact decide_eq_false hu

end Search

/-- **A walk in which vertices may be visited again finds the trails that are long enough and
included**, each of them once for each choice of steps that admit its hops, and the shorter ones
before the longer ones. -/
theorem search_trails {changes : List Graph.Change}
    (hvertices : changes.countP Graph.Change.isVertex ≤ 2 ^ 64)
    (hedges : changes.countP Graph.Change.isEdge ≤ 2 ^ 64)
    {start : VertexId} {v : Vertex} (hv : (Graph.build changes).vertex? start = some v)
    {q : Request} {plan : Plan} (hq : q.compile = .ok plan)
    (hu : q.uniqueness ≠ .nodeGlobal) (hlimit : q.limit = none) :
    ∃ results, search (Graph.build changes) plan start = .ok results ∧
      (∀ p, p ∈ results ↔
        plan.Trail (Graph.build changes) v p ∧ plan.bounds.minLevel.toNat ≤ p.length ∧
          (plan.evaluator.decidePath p).includes = true) ∧
      (∀ p ∈ results, results.count p = p.ways plan.itinerary) ∧
      results.Pairwise fun p p' => p.length ≤ p'.length := by
  have hg := Graph.indexed_build hvertices hedges
  have hid := Graph.vertex?_id hv
  have honce := Search.visitsOnce_eq_false hq hu
  have hlimit' : plan.bounds.limit = none := by
    obtain ⟨-, rfl⟩ := Request.compile_eq_ok_iff.mp hq
    exact hlimit
  have hmem := fun {p n} =>
    Search.mem_generation_iff (p := p) (n := n) (v := v) hg (by rw [hid, hv]) honce
  have hresults : ∀ p, p ∈ (List.range ((Graph.build changes).edges.size + 1)).flatMap (fun n =>
      (Search.generation (Graph.build changes) plan v n).paths.filter plan.reports) ↔
      plan.reports p = true ∧ plan.Trail (Graph.build changes) v p := by
    intro p
    rw [Search.mem_results_iff]
    constructor
    · rintro ⟨hreports, n, hp⟩
      exact ⟨hreports, (hmem.mp hp).1⟩
    · exact fun h => ⟨h.1, p.length, hmem.mpr ⟨h.2, rfl⟩⟩
  refine ⟨_, (search_eq hg.toClosed plan hv).trans (by rw [Plan.cut_of_limit_none hlimit']),
    fun p => ?_, fun p hp => ?_, ?_⟩
  · rw [hresults]
    simp only [Plan.reports, Bool.and_eq_true, decide_eq_true_eq]
    tauto
  · -- A path is in the generation of its length only, and there as often as it has choices.
    obtain ⟨hreports, htrail⟩ := (hresults p).mp hp
    obtain ⟨n, hn, hpn⟩ := List.mem_flatMap.mp hp
    obtain rfl := (hmem.mp (List.mem_filter.mp hpn).1).2
    rw [count_flatMap_of_ne (a := p.length), List.count_filter hreports,
      Search.count_generation hg honce htrail, (List.nodup_range).count, if_pos hn, Nat.one_mul]
    intro n _ hne hmem'
    exact hne (hmem.mp (List.mem_filter.mp hmem').1).2.symm
  · exact Search.pairwise_length_results

/-- Two steps that admit the same edges give a path of two hops four times. -/
theorem search_trails_overlapping :
    ∃ results,
      search (Graph.build [.vertex [], .vertex [], .edge ⟨0⟩ ⟨1⟩ "A", .edge ⟨0⟩ ⟨0⟩ "A"])
        (Request.plan { edgeFilter := some "A>|A" }) ⟨0⟩ = .ok results ∧
      results.count (.hop (.hop (.start ⟨⟨0⟩, .empty⟩) ⟨⟨1⟩, "A", ⟨0⟩, ⟨0⟩⟩ ⟨⟨0⟩, .empty⟩)
        ⟨⟨0⟩, "A", ⟨0⟩, ⟨1⟩⟩ ⟨⟨1⟩, .empty⟩) = 4 := by
  obtain ⟨results, hsearch, hmem, hcount, -⟩ := @search_trails
    [.vertex [], .vertex [], .edge ⟨0⟩ ⟨1⟩ "A", .edge ⟨0⟩ ⟨0⟩ "A"] (by decide) (by decide)
    ⟨0⟩ ⟨⟨0⟩, .empty⟩ (by decide) { edgeFilter := some "A>|A" } _ rfl (by decide) rfl
  refine ⟨results, hsearch, ?_⟩
  rw [hcount]
  · decide
  · refine (hmem _).mpr ⟨⟨rfl, by decide, ?_, ?_⟩, by decide, by decide⟩
    · exact ⟨⟨rfl, Array.mem_toList_iff.mp (by decide), by decide, by decide, by decide⟩,
        Array.mem_toList_iff.mp (by decide), by decide, by decide, by decide⟩
    · intro r hr
      simp only [Path.properPrefixes, List.nil_append, List.mem_append, List.mem_singleton] at hr
      rcases hr with rfl | rfl
      · exact ⟨by simp [Request.plan, Request.bounds], by decide⟩
      · exact ⟨by simp [Request.plan, Request.bounds], by decide⟩

end WalkFilter
