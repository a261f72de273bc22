/-
Which paths a walk finds where every vertex is visited once.

A route is a path over the graph that comes to no vertex twice, whose hops
the itinerary admits and none of whose proper beginnings ends the walk.  From
the first hop on the filters of a subgraph walk with one tag rule and one
repeating selector do not look at the depth, so a vertex is as good at the end
of one path as at the end of another:

* **`mem_visited_iff`** — the vertices visited are the ends of the paths so
  far;
* **`end_ne_of_lt`** — no path ends where one of an earlier generation does;
* **`vertices_of_mem_generation`** — no path of a generation comes to a vertex twice;
* **`route_of_mem_generation`** — generation `n` holds routes of length `n`;
* **`exists_generation_of_route`** — where a route ends, a path of a
  generation no later than its length has come to an end;
* **`search_routes`** — the results of a walk are shortest routes, one to each
  vertex that is included and that a route leads to.
-/
import WalkFilter.Proofs.Trail
import WalkFilter.Proofs.ListFilter

namespace WalkFilter

/-! ### Filters that do not look at the depth -/

/-- A cycle of one position has the same position at every depth from 1 on. -/
theorem DepthCycle.at?_of_length_le_one {α : Type} {c : DepthCycle α}
    (h : c.positions.length ≤ 1) {depth : Nat} (hdepth : 1 ≤ depth) : c.at? depth = c.at? 1 := by
  have hmod : ∀ d, d % c.positions.length = 0 ∨ c.positions = [] := by
    intro d
    rcases Nat.lt_or_eq_of_le h with hlt | heq
    · exact Or.inr (List.length_eq_zero_iff.mp (by omega))
    · exact Or.inl (by rw [heq, Nat.mod_one])
  obtain ⟨d, rfl⟩ : ∃ d, depth = d + 1 := ⟨depth - 1, by omega⟩
  have hindex : c.indexAt (d + 1) = c.indexAt 1 := by
    unfold indexAt
    split
    · rfl
    · next hne =>
      have hzero : ∀ d, d % c.positions.length = 0 := fun d =>
        (hmod d).resolve_right (by simpa using hne)
      cases c.offset <;> simp only [hzero]
  rw [at?, at?, hindex]

/-- With one repeating selector the steps are the same at every depth from 1 on. -/
theorem Itinerary.stepsAt_of_length_le_one {i : Itinerary} (h : i.repeating.length ≤ 1)
    {depth : Nat} (hdepth : 1 ≤ depth) : i.stepsAt depth = i.stepsAt 1 := by
  obtain ⟨d, rfl⟩ : ∃ d, depth = d + 1 := ⟨depth - 1, by omega⟩
  have hselector : i.selectorAt (d + 1) = i.selectorAt 1 := by
    cases hfirst : i.first with
    | none => simpa [selectorAt, hfirst] using i.cycle.at?_of_length_le_one h hdepth
    | some s => simpa [selectorAt, hfirst] using i.cycle.at?_of_length_le_one h hdepth
  rw [stepsAt, stepsAt, hselector]

/-- A sequence of one rule decides the same at every depth from 1 on, where that is long enough. -/
theorem TagSequence.decide_of_size_eq_one {s : TagSequence} (hsize : s.size = 1)
    (hmin : s.options.minLevel.toNat ≤ 1) {depth : Nat} (hdepth : 1 ≤ depth) (v : Vertex) :
    s.decide depth v = s.decide 1 v := by
  have hat := s.rules.at?_of_length_le_one (Nat.le_of_eq hsize) hdepth
  have hbelow : depth < s.options.minLevel.toNat ↔ 1 < s.options.minLevel.toNat := by omega
  have hstart : depth = 0 ↔ 1 = 0 := by omega
  simp only [decide, hat, hbelow, hstart]

/-- From the first hop on the filters of a plan do not look at the depth. -/
structure Plan.Steady (plan : Plan) : Prop where
  decide : ∀ depth, 1 ≤ depth → ∀ u, plan.evaluator.decide depth u = plan.evaluator.decide 1 u
  steps : ∀ depth, 1 ≤ depth → plan.itinerary.stepsAt depth = plan.itinerary.stepsAt 1

/-- Two paths that end on one vertex fare alike, if neither or both of them have a hop. -/
theorem Plan.Steady.eq_of_last_eq {plan : Plan} (h : plan.Steady) {p q : Path}
    (hlast : p.last = q.last) (hzero : p.length = 0 ↔ q.length = 0) :
    plan.evaluator.decidePath p = plan.evaluator.decidePath q ∧
      plan.itinerary.stepsAt p.length = plan.itinerary.stepsAt q.length := by
  rw [Evaluator.decidePath, Evaluator.decidePath, hlast]
  rcases Nat.eq_zero_or_pos p.length with hp | hp
  · rw [hp, hzero.mp hp]
    exact ⟨rfl, rfl⟩
  · have hq : 1 ≤ q.length := by omega
    exact ⟨(h.decide _ hp _).trans (h.decide _ hq _).symm,
      (h.steps _ hp).trans (h.steps _ hq).symm⟩

namespace Request

variable {q : Request}

theorem forSubgraph_eq_ok {q₀ : Request} (h : q₀.forSubgraph = .ok q) :
    q.minLevel.toNat ≤ 1 ∧ q.uniqueness = .nodeGlobal := by
  unfold forSubgraph at h
  split at h
  · cases h
  · next hmin =>
    cases h
    exact ⟨UInt64.le_iff_toNat_le.mp (UInt64.not_lt.mp hmin), rfl⟩

theorem options_tagSequence (q : Request) : q.tagSequence.options = q.options := by
  unfold tagSequence
  split <;> rfl

/-- What the lists of a request say of a vertex is the same at every depth from 1 on. -/
theorem decideLists_of_minLevel_le_one (hmin : q.minLevel.toNat ≤ 1) {depth : Nat}
    (hdepth : 1 ≤ depth) (v : VertexId) : q.decideLists depth v = q.decideLists 1 v := by
  have hexempt : ∀ d, 1 ≤ d → ¬ q.IsExempt d := fun d hd h => absurd h.1 (Nat.ne_of_gt hd)
  have hlong : q.minLevel.toNat ≤ depth ↔ q.minLevel.toNat ≤ 1 := by omega
  have hbelow : depth < q.minLevel.toNat ↔ 1 < q.minLevel.toNat := by omega
  simp only [decideLists, allows, spares, endsAt, goesThrough, hexempt depth hdepth,
    hexempt 1 (Nat.le_refl 1), hlong, hbelow]

theorem decide_plan_of_pos (hmin : q.minLevel.toNat ≤ 1) (hsize : q.tagSequence.size = 1)
    {depth : Nat} (hdepth : 1 ≤ depth) (v : Vertex) :
    q.plan.evaluator.decide depth v = q.plan.evaluator.decide 1 v := by
  have hoptions : q.tagSequence.options.minLevel.toNat ≤ 1 := by
    rw [options_tagSequence]
    exact hmin
  rw [decide_plan, decide_plan, TagSequence.decide_of_size_eq_one hsize hoptions hdepth,
    decideLists_of_minLevel_le_one hmin hdepth]

end Request

/-! ### Routes -/

/-- An edge leads to its two ends only. -/
theorem Edge.eq_or_eq_of_other {e : Edge} {a b u w : VertexId} (hab : e.other a = some b)
    (huw : e.other u = some w) : w = a ∨ w = b := by
  unfold other at hab huw
  grind

/-- A path from `v` that comes to no vertex twice, whose hops are admitted, that is not longer
than the greatest length, and each proper beginning of which goes on. -/
structure Plan.Route (plan : Plan) (g : Graph) (v : Vertex) (p : Path) : Prop where
  first : p.first = v
  vertices : (p.vertices.map (·.id)).Nodup
  hops : p.Follows g plan.itinerary
  within : ∀ m, plan.bounds.maxLevel = some m → p.length ≤ m.toNat
  goesOn : ∀ r ∈ p.properPrefixes, (plan.evaluator.decidePath r).continues = true

theorem Path.last_mem_vertices (p : Path) : p.last ∈ p.vertices := by
  cases p with
  | start v => exact List.mem_singleton.mpr rfl
  | hop p e v =>
    rw [vertices_hop]
    exact List.mem_append_right _ (List.mem_singleton.mpr rfl)

theorem Path.first_mem_vertices (p : Path) : p.first ∈ p.vertices := by
  induction p with
  | start v => exact List.mem_singleton.mpr rfl
  | hop p e v ih =>
    rw [vertices_hop]
    exact List.mem_append_left _ ih

/-- A hop comes to no vertex twice if the path does not and the end of the hop is not on it. -/
theorem Path.nodup_vertices_hop {p : Path} {e : Edge} {v : Vertex} :
    ((hop p e v).vertices.map (·.id)).Nodup ↔
      (p.vertices.map (·.id)).Nodup ∧ v.id ∉ p.vertices.map (·.id) := by
  rw [vertices_hop, List.map_append, List.map_singleton, ← List.concat_eq_append,
    List.nodup_concat, and_comm]

namespace Plan

variable {plan : Plan} {g : Graph} {v : Vertex}

theorem route_start (hv : g.vertex? v.id = some v) : plan.Route g v (.start v) where
  first := rfl
  vertices := by simp
  hops := hv
  within := by simp [Path.length]
  goesOn := by simp [Path.properPrefixes]

/-- A route that is lengthened to a vertex that is not on it is a route. -/
theorem route_hop_iff {p : Path} {e : Edge} {w : Vertex} :
    plan.Route g v (.hop p e w) ↔
      plan.Route g v p ∧ plan.lengthens p = true ∧ w.id ∉ p.vertices.map (·.id) ∧
        p.IsHop g plan.itinerary e w := by
  have hvertices := Path.nodup_vertices_hop (p := p) (e := e) (v := w)
  rw [lengthens_iff]
  constructor
  · intro h
    have hwithin := fun m hm => Nat.lt_of_succ_le (h.within m hm)
    exact ⟨⟨h.first, (hvertices.mp h.vertices).1, h.hops.1, fun m hm => (hwithin m hm).le,
        fun r hr => h.goesOn r (List.mem_append_left _ hr)⟩,
      ⟨hwithin, h.goesOn p (List.mem_append_right _ (List.mem_singleton.mpr rfl))⟩,
      (hvertices.mp h.vertices).2, h.hops.2⟩
  · rintro ⟨hp, ⟨hwithin, hgoes⟩, hnew, hhop⟩
    refine ⟨hp.first, hvertices.mpr ⟨hp.vertices, hnew⟩, ⟨hp.hops, hhop⟩,
      fun m hm => Nat.succ_le_of_lt (hwithin m hm), fun r hr => ?_⟩
    rcases List.mem_append.mp hr with hr | hr
    · exact hp.goesOn r hr
    · rw [List.mem_singleton.mp hr]
      exact hgoes

/-- A route that ends where it begins has no hop. -/
theorem Route.length_eq_zero_iff {p : Path} (h : plan.Route g v p) :
    p.length = 0 ↔ p.last.id = v.id := by
  cases p with
  | start u =>
    rw [← h.first]
    exact iff_of_true rfl rfl
  | hop p e w =>
    obtain ⟨hp, -, hnew, -⟩ := route_hop_iff.mp h
    refine iff_of_false (Nat.succ_ne_zero _) fun hlast => hnew ?_
    rw [show w.id = v.id from hlast, ← hp.first]
    exact List.mem_map_of_mem p.first_mem_vertices

end Plan

/-! ### Vertices visited once -/

namespace Search

/-- The ends of the paths that are kept are visited from then on, and no others. -/
theorem mem_visited_keep {l : List Path} {visited : List VertexId} {w : VertexId} :
    w ∈ (keep true l visited).visited ↔
      w ∈ visited ∨ w ∈ (keep true l visited).paths.map (·.last.id) := by
  induction l generalizing visited with
  | nil => simp [keep]
  | cons q rest ih =>
    rw [keep, Bool.true_and]
    split
    · exact ih
    · simp only [if_true, ih, List.mem_cons, List.map_cons]
      tauto

/-- Every path ends on a vertex that is visited in the end. -/
theorem last_mem_visited_keep {l : List Path} {visited : List VertexId} {q : Path} (h : q ∈ l) :
    q.last.id ∈ (keep true l visited).visited := by
  induction l generalizing visited with
  | nil => simp at h
  | cons p rest ih =>
    rw [keep, Bool.true_and]
    split
    · next hp =>
      rcases List.mem_cons.mp h with rfl | h
      · exact mem_visited_keep.mpr (Or.inl (of_decide_eq_true hp))
      · exact ih h
    · rcases List.mem_cons.mp h with rfl | h
      · exact mem_visited_keep.mpr (Or.inl (List.mem_cons_self ..))
      · exact ih h

/-- The paths that are kept end on vertices not visited before, each on one of its own. -/
theorem ends_keep (l : List Path) (visited : List VertexId) :
    ((keep true l visited).paths.map (·.last.id)).Nodup ∧
      ∀ q ∈ (keep true l visited).paths, q.last.id ∉ visited := by
  induction l generalizing visited with
  | nil => simp [keep]
  | cons p rest ih =>
    rw [keep, Bool.true_and]
    split
    · exact ih visited
    · next hp =>
      obtain ⟨hnodup, hnew⟩ := ih (p.last.id :: visited)
      simp only [if_true, List.map_cons, List.nodup_cons, List.mem_map, List.forall_mem_cons]
      refine ⟨⟨?_, hnodup⟩, fun hmem => hp (decide_eq_true hmem),
        fun q hq hmem => hnew q hq (List.mem_cons_of_mem _ hmem)⟩
      rintro ⟨q, hq, heq⟩
      exact hnew q hq (heq ▸ List.mem_cons_self ..)

variable {plan : Plan} {g : Graph} {v : Vertex}

/-- The vertices visited are the ends of the paths of the generations so far. -/
theorem mem_visited_iff (honce : plan.visitsOnce = true) {n : Nat} {w : VertexId} :
    w ∈ (generation g plan v n).visited ↔
      ∃ k ≤ n, ∃ q ∈ (generation g plan v k).paths, q.last.id = w := by
  induction n with
  | zero => simp [generation_zero, Path.last, eq_comm]
  | succ n ih =>
    have hstep : w ∈ (generation g plan v (n + 1)).visited ↔
        w ∈ (generation g plan v n).visited ∨
          ∃ q ∈ (generation g plan v (n + 1)).paths, q.last.id = w := by
      rw [generation_succ, grow, honce, mem_visited_keep, List.mem_map]
    rw [hstep, ih]
    constructor
    · rintro (⟨k, hk, h⟩ | h)
      · exact ⟨k, Nat.le_succ_of_le hk, h⟩
      · exact ⟨n + 1, Nat.le_refl _, h⟩
    · rintro ⟨k, hk, h⟩
      rcases Nat.lt_or_eq_of_le hk with hlt | rfl
      · exact Or.inl ⟨k, Nat.le_of_lt_succ hlt, h⟩
      · exact Or.inr h

theorem visited_subset_succ (honce : plan.visitsOnce = true) {n : Nat} {w : VertexId}
    (h : w ∈ (generation g plan v n).visited) : w ∈ (generation g plan v (n + 1)).visited := by
  obtain ⟨k, hk, h⟩ := (mem_visited_iff honce).mp h
  exact (mem_visited_iff honce).mpr ⟨k, Nat.le_succ_of_le hk, h⟩

theorem ends_generation_succ (honce : plan.visitsOnce = true) (n : Nat) :
    ((generation g plan v (n + 1)).paths.map (·.last.id)).Nodup ∧
      ∀ q ∈ (generation g plan v (n + 1)).paths, q.last.id ∉ (generation g plan v n).visited := by
  rw [generation_succ, grow, honce]
  exact ends_keep _ _

theorem nodup_ends_generation (honce : plan.visitsOnce = true) (n : Nat) :
    ((generation g plan v n).paths.map (·.last.id)).Nodup := by
  cases n with
  | zero => exact List.nodup_singleton _
  | succ n => exact (ends_generation_succ honce n).1

/-- A vertex where a path ends is not the end of a path of a later generation. -/
theorem end_ne_of_lt (honce : plan.visitsOnce = true) {k n : Nat} (hlt : k < n) {p q : Path}
    (hp : p ∈ (generation g plan v k).paths) (hq : q ∈ (generation g plan v n).paths) :
    p.last.id ≠ q.last.id := by
  obtain ⟨m, rfl⟩ : ∃ m, n = m + 1 := ⟨n - 1, by omega⟩
  intro heq
  refine (ends_generation_succ honce m).2 q hq ?_
  exact (mem_visited_iff honce).mpr ⟨k, Nat.le_of_lt_succ hlt, p, hp, heq⟩

/-- No path of a generation comes to a vertex twice, and every vertex on it is visited. -/
theorem vertices_of_mem_generation (honce : plan.visitsOnce = true) {n : Nat} {p : Path}
    (hp : p ∈ (generation g plan v n).paths) :
    (p.vertices.map (·.id)).Nodup ∧ ∀ x ∈ p.vertices, x.id ∈ (generation g plan v n).visited := by
  induction n generalizing p with
  | zero =>
    rw [generation_zero, List.mem_singleton] at hp
    subst hp
    simp [generation_zero]
  | succ n ih =>
    obtain ⟨q, hq, hpq⟩ := exists_longer_of_mem_generation hp
    obtain ⟨hnodup, hvisited⟩ := ih hq
    obtain ⟨e, w, rfl, -⟩ := mem_longer_cases hpq
    -- The vertices of `q` are visited before, and the end of the hop is not.
    have hnew : w.id ∉ q.vertices.map (·.id) := by
      intro hmem
      obtain ⟨x, hx, hid⟩ := List.mem_map.mp hmem
      exact (ends_generation_succ honce n).2 _ hp (hid ▸ hvisited x hx)
    refine ⟨Path.nodup_vertices_hop.mpr ⟨hnodup, hnew⟩, fun x hx => ?_⟩
    rw [Path.vertices_hop, List.mem_append, List.mem_singleton] at hx
    rcases hx with hx | rfl
    · exact visited_subset_succ honce (hvisited x hx)
    · exact (mem_visited_iff honce).mpr ⟨n + 1, Nat.le_refl _, _, hp, rfl⟩

/-- **The paths of a generation are routes**, and every vertex on them is visited. -/
theorem route_of_mem_generation (hg : g.Indexed) (hv : g.vertex? v.id = some v)
    (honce : plan.visitsOnce = true) {n : Nat} {p : Path}
    (hp : p ∈ (generation g plan v n).paths) :
    plan.Route g v p ∧ ∀ x ∈ p.vertices, x.id ∈ (generation g plan v n).visited := by
  refine ⟨?_, (vertices_of_mem_generation honce hp).2⟩
  induction n generalizing p with
  | zero =>
    rw [generation_zero, List.mem_singleton] at hp
    subst hp
    exact Plan.route_start hv
  | succ n ih =>
    obtain ⟨q, hq, hpq⟩ := exists_longer_of_mem_generation hp
    have hroute := ih hq
    obtain ⟨e, w, rfl, -⟩ := mem_longer_cases hpq
    obtain ⟨hlengthens, -, hhop⟩ :=
      (hop_mem_longer_iff hg (Plan.endsIn_of_follows hroute.hops)).mp hpq
    have hnew := (Path.nodup_vertices_hop.mp (vertices_of_mem_generation honce hp).1).2
    exact Plan.route_hop_iff.mpr ⟨hroute, hlengthens, hnew, hhop⟩

/-- Both ends of an edge that a path walks are on the path. -/
theorem mem_vertices_of_mem_edges {i : Itinerary} {p : Path} (h : p.Follows g i) {e : Edge}
    (he : e ∈ p.edges) {u w : VertexId} (hother : e.other u = some w) :
    w ∈ p.vertices.map (·.id) := by
  induction p with
  | start v => simp at he
  | hop p e' v ih =>
    rw [Path.vertices_hop, List.map_append, List.map_singleton, List.mem_append,
      List.mem_singleton]
    rw [Path.edges_hop, List.mem_append, List.mem_singleton] at he
    rcases he with he | rfl
    · exact Or.inl (ih h.1 he)
    · rcases Edge.eq_or_eq_of_other h.2.arrives hother with rfl | rfl
      · exact Or.inl (List.mem_map_of_mem p.last_mem_vertices)
      · exact Or.inr rfl

theorem mem_edges_of_follows {i : Itinerary} {p : Path} (h : p.Follows g i) {e : Edge}
    (he : e ∈ p.edges) : e ∈ g.edges := by
  induction p with
  | start v => simp at he
  | hop p e' v ih =>
    rw [Path.edges_hop, List.mem_append, List.mem_singleton] at he
    rcases he with he | rfl
    · exact ih h.1 he
    · exact h.2.edge

/-- A hop from the end of a path leads to a vertex that the next generation has visited: either
it lengthens the path, or the path has walked its edge already. -/
theorem mem_visited_of_hop (hg : g.Indexed) (hv : g.vertex? v.id = some v)
    (honce : plan.visitsOnce = true) {n : Nat} {q : Path}
    (hq : q ∈ (generation g plan v n).paths) (hlengthens : plan.lengthens q = true) {e : Edge}
    {w : Vertex} (hhop : q.IsHop g plan.itinerary e w) :
    w.id ∈ (generation g plan v (n + 1)).visited := by
  obtain ⟨hroute, hvisited⟩ := route_of_mem_generation hg hv honce hq
  cases hwalks : q.walks e.id with
  | true =>
    rw [Path.walks_eq_any, List.any_eq_true] at hwalks
    obtain ⟨e', he', hid⟩ := hwalks
    obtain rfl := hg.eq_of_id_eq (mem_edges_of_follows hroute.hops he') hhop.edge
      (of_decide_eq_true hid)
    obtain ⟨x, hx, hxid⟩ :=
      List.mem_map.mp (mem_vertices_of_mem_edges hroute.hops he' hhop.arrives)
    exact hxid ▸ visited_subset_succ honce (hvisited x hx)
  | false =>
    have hlonger := (hop_mem_longer_iff hg (Plan.endsIn_of_follows hroute.hops)).mpr
      ⟨hlengthens, hwalks, hhop⟩
    rw [generation_succ, grow, honce]
    exact last_mem_visited_keep (List.mem_flatMap.mpr ⟨q, hq, hlonger⟩)

/-- **Where a route ends, a path that is no longer has come to an end.** -/
theorem exists_generation_of_route (hg : g.Indexed) (hv : g.vertex? v.id = some v)
    (honce : plan.visitsOnce = true) (hsteady : plan.Steady) {p : Path} (hp : plan.Route g v p) :
    ∃ k ≤ p.length, ∃ q ∈ (generation g plan v k).paths, q.last.id = p.last.id := by
  induction p with
  | start u =>
    obtain rfl := hp.first
    exact ⟨0, Nat.le_refl _, .start u, List.mem_singleton.mpr rfl, rfl⟩
  | hop p e w ih =>
    obtain ⟨hroute, hlengthens, -, hhop⟩ := Plan.route_hop_iff.mp hp
    obtain ⟨k, hk, q, hq, hid⟩ := ih hroute
    obtain ⟨hqroute, -⟩ := route_of_mem_generation hg hv honce hq
    have hlength := length_of_mem_generation hq
    have hlast : q.last = p.last := (Plan.endsIn_of_follows hqroute.hops).last_eq
      (Plan.endsIn_of_follows hroute.hops) hid
    have hzero : q.length = 0 ↔ p.length = 0 := by
      rw [hqroute.length_eq_zero_iff, hroute.length_eq_zero_iff, hid]
    obtain ⟨hdecide, hsteps⟩ := hsteady.eq_of_last_eq hlast hzero
    -- What lengthens `p` lengthens `q`, which is no longer and ends on the same vertex.
    have hqlengthens : plan.lengthens q = true := by
      rw [Plan.lengthens_iff] at hlengthens ⊢
      exact ⟨fun m hm => by have := hlengthens.1 m hm; omega, hdecide ▸ hlengthens.2⟩
    have hqhop : q.IsHop g plan.itinerary e w :=
      ⟨hhop.edge, by rw [hsteps, hlast]; exact hhop.admitted, by rw [hlast]; exact hhop.arrives,
        hhop.vertex⟩
    obtain ⟨m, hm, h⟩ := (mem_visited_iff honce).mp
      (mem_visited_of_hop hg hv honce hq hqlengthens hqhop)
    exact ⟨m, Nat.le_trans hm (Nat.succ_le_succ hk), h⟩

/-- A path of a generation is as short as any route to its end. -/
theorem length_le_of_route (hg : g.Indexed) (hv : g.vertex? v.id = some v)
    (honce : plan.visitsOnce = true) (hsteady : plan.Steady) {n : Nat} {p r : Path}
    (hp : p ∈ (generation g plan v n).paths) (hr : plan.Route g v r)
    (hlast : r.last.id = p.last.id) : p.length ≤ r.length := by
  obtain ⟨k, hk, q, hq, hid⟩ := exists_generation_of_route hg hv honce hsteady hr
  have hnk : n ≤ k := by
    by_contra hlt
    exact end_ne_of_lt honce (Nat.lt_of_not_le hlt) hq hp (hid.trans hlast)
  rw [length_of_mem_generation hp]
  exact Nat.le_trans hnk hk

/-- Which ends the results have, the start left aside: those that are included and that a route
leads to. -/
theorem exists_reports_iff (hg : g.Indexed) (hv : g.vertex? v.id = some v)
    (honce : plan.visitsOnce = true) (hsteady : plan.Steady)
    (hmin : plan.bounds.minLevel.toNat ≤ 1) {w : VertexId} (hw : w ≠ v.id) :
    (∃ p, (plan.reports p ∧ ∃ n, p ∈ (generation g plan v n).paths) ∧ p.last.id = w) ↔
      ∃ u, g.vertex? w = some u ∧ (plan.evaluator.decide 1 u).includes = true ∧
        ∃ r, plan.Route g v r ∧ r.last = u := by
  have hpos : ∀ r, plan.Route g v r → r.last.id = w → 1 ≤ r.length := fun r hr hlast =>
    Nat.one_le_iff_ne_zero.mpr fun hzero => hw (hlast ▸ hr.length_eq_zero_iff.mp hzero)
  constructor
  · rintro ⟨p, ⟨hreports, n, hp⟩, hlast⟩
    obtain ⟨hroute, -⟩ := route_of_mem_generation hg hv honce hp
    have hends := Plan.endsIn_of_follows hroute.hops
    rw [Path.EndsIn, hlast] at hends
    rw [Plan.reports, Bool.and_eq_true, Evaluator.decidePath,
      hsteady.decide _ (hpos p hroute hlast)] at hreports
    exact ⟨p.last, hends, hreports.1, p, hroute, rfl⟩
  · rintro ⟨u, hu, hincludes, r, hr, rfl⟩
    obtain rfl := Graph.vertex?_id hu
    obtain ⟨k, -, q, hq, hid⟩ := exists_generation_of_route hg hv honce hsteady hr
    obtain ⟨hqroute, -⟩ := route_of_mem_generation hg hv honce hq
    have hlength := hpos q hqroute hid
    have hlast := (Plan.endsIn_of_follows hqroute.hops).last_eq hu hid
    refine ⟨q, ⟨?_, k, hq⟩, hid⟩
    rw [Plan.reports, Bool.and_eq_true, Evaluator.decidePath, hsteady.decide _ hlength, hlast]
    exact ⟨hincludes, decide_eq_true (Nat.le_trans hmin hlength)⟩

/-- No two results end on the same vertex. -/
theorem nodup_ends_results (honce : plan.visitsOnce = true) (k : Nat) :
    (((List.range k).flatMap fun n =>
      (generation g plan v n).paths.filter plan.reports).map (·.last.id)).Nodup := by
  rw [List.map_flatMap, List.nodup_flatMap]
  refine ⟨fun n _ => ((List.filter_sublist).map _).nodup (nodup_ends_generation honce n), ?_⟩
  refine List.pairwise_lt_range.imp fun hlt w hw hw' => ?_
  obtain ⟨p, hp, rfl⟩ := List.mem_map.mp hw
  obtain ⟨p', hp', hid⟩ := List.mem_map.mp hw'
  exact end_ne_of_lt honce hlt (List.mem_filter.mp hp).1 (List.mem_filter.mp hp').1 hid.symm

end Search

/-- A request whose tags are one rule and whose edges repeat one selector has a plan that does not
look at the depth, if it counts paths of one hop. -/
theorem Request.steady_plan {q : Request} (hmin : q.minLevel.toNat ≤ 1) {s : TagSequence}
    (hs : q.plan.evaluator.tagSequence? = some s) (hsize : s.size = 1)
    (hrepeating : q.plan.itinerary.repeating.length ≤ 1) : q.plan.Steady where
  decide depth hdepth u := by
    rw [tagSequence?_plan] at hs
    cases hs
    exact decide_plan_of_pos hmin hsize hdepth u
  steps depth hdepth := Itinerary.stepsAt_of_length_le_one hrepeating hdepth

/-- **A subgraph walk finds a shortest route to each vertex that it can reach**, if its tags are
one rule and its edges repeat at most one selector: but for the start it finds the vertices that
are included and that a route leads to, each of them once and by a route as short as any. -/
theorem search_routes {changes : List Graph.Change}
    (hvertices : changes.countP Graph.Change.isVertex ≤ 2 ^ 64)
    (hedges : changes.countP Graph.Change.isEdge ≤ 2 ^ 64)
    {start : VertexId} {v : Vertex} (hv : (Graph.build changes).vertex? start = some v)
    {q₀ q : Request} (hsub : q₀.forSubgraph = .ok q) {plan : Plan} (hq : q.compile = .ok plan)
    (hlimit : q.limit = none) {s : TagSequence} (hs : plan.evaluator.tagSequence? = some s)
    (hsize : s.size = 1) (hrepeating : plan.itinerary.repeating.length ≤ 1) :
    (∀ depth u, 1 ≤ depth → plan.evaluator.decide depth u = plan.evaluator.decide 1 u) ∧
    ∃ results, search (Graph.build changes) plan start = .ok results ∧
      (∀ w, w ≠ start → ((∃ p ∈ results, p.last.id = w) ↔
        ∃ u, (Graph.build changes).vertex? w = some u ∧
          (plan.evaluator.decide 1 u).includes = true ∧
          ∃ r, plan.Route (Graph.build changes) v r ∧ r.last = u)) ∧
      (∀ p ∈ results, plan.Route (Graph.build changes) v p ∧
        ∀ r, plan.Route (Graph.build changes) v r → r.last.id = p.last.id →
          p.length ≤ r.length) ∧
      (∀ p ∈ results, p.last.id = start → p = .start v) ∧
      (.start v ∈ results ↔
        plan.bounds.minLevel.toNat = 0 ∧ (plan.evaluator.decide 0 v).includes = true) ∧
      (results.map (·.last.id)).Nodup ∧
      results.Pairwise fun p p' => p.length ≤ p'.length := by
  have hg := Graph.indexed_build hvertices hedges
  obtain rfl := Graph.vertex?_id hv
  obtain ⟨hmin, hu⟩ := Request.forSubgraph_eq_ok hsub
  obtain ⟨-, rfl⟩ := Request.compile_eq_ok_iff.mp hq
  have honce : q.plan.visitsOnce = true := decide_eq_true hu
  have hsteady := Request.steady_plan hmin hs hsize hrepeating
  refine ⟨fun depth u hdepth => hsteady.decide depth hdepth u, _,
    (search_eq hg.toClosed q.plan hv).trans (by rw [Plan.cut_of_limit_none hlimit]), fun w hw => ?_,
    fun p hp => ?_, fun p hp hlast => ?_, ?_, Search.nodup_ends_results honce _,
    Search.pairwise_length_results⟩
  · rw [← Search.exists_reports_iff hg hv honce hsteady hmin hw]
    simp only [Search.mem_results_iff]
  · obtain ⟨-, n, hp⟩ := Search.mem_results_iff.mp hp
    exact ⟨(Search.route_of_mem_generation hg hv honce hp).1,
      fun r hr hlast => Search.length_le_of_route hg hv honce hsteady hp hr hlast⟩
  · obtain ⟨-, n, hp⟩ := Search.mem_results_iff.mp hp
    obtain ⟨hroute, -⟩ := Search.route_of_mem_generation hg hv honce hp
    have hzero := hroute.length_eq_zero_iff.mpr hlast
    cases p with
    | start u => rw [← hroute.first]; rfl
    | hop p e w => cases hzero
  · rw [Search.mem_results_iff, Plan.reports, Bool.and_eq_true, decide_eq_true_eq,
      Path.length, Nat.le_zero]
    constructor
    · exact fun h => ⟨h.1.2, h.1.1⟩
    · exact fun h => ⟨⟨h.2, h.1⟩, 0, List.mem_singleton.mpr rfl⟩

/-- The first hop has its own selector, and one of the two ways to the last vertex is closed. -/
theorem search_routes_first_hop :
    ∃ results,
      search (Graph.build [.vertex [], .vertex ["Draft"], .vertex [], .vertex [],
          .edge ⟨0⟩ ⟨1⟩ "A", .edge ⟨0⟩ ⟨2⟩ "A", .edge ⟨1⟩ ⟨3⟩ "B", .edge ⟨2⟩ ⟨3⟩ "B"])
        (Request.plan { tagFilter := some "-Draft", edgeFilter := some "A>,B>",
                        beginAtStart := false, uniqueness := .nodeGlobal }) ⟨0⟩ = .ok results ∧
      (∃ p ∈ results, p.last.id = ⟨3⟩ ∧ p.length ≤ 2) ∧ ¬ ∃ p ∈ results, p.last.id = ⟨1⟩ := by
  obtain ⟨-, results, hsearch, hends, hshortest, -⟩ := @search_routes
    [.vertex [], .vertex ["Draft"], .vertex [], .vertex [], .edge ⟨0⟩ ⟨1⟩ "A",
      .edge ⟨0⟩ ⟨2⟩ "A", .edge ⟨1⟩ ⟨3⟩ "B", .edge ⟨2⟩ ⟨3⟩ "B"] (by decide) (by decide)
    ⟨0⟩ ⟨⟨0⟩, .empty⟩ (by decide)
    { tagFilter := some "-Draft", edgeFilter := some "A>,B>", beginAtStart := false } _ rfl _ rfl
    rfl _ rfl (by decide) (by decide)
  have hroute : (Request.plan { tagFilter := some "-Draft", edgeFilter := some "A>,B>",
                                beginAtStart := false, uniqueness := .nodeGlobal }).Route
      (Graph.build [.vertex [], .vertex ["Draft"], .vertex [], .vertex [], .edge ⟨0⟩ ⟨1⟩ "A",
        .edge ⟨0⟩ ⟨2⟩ "A", .edge ⟨1⟩ ⟨3⟩ "B", .edge ⟨2⟩ ⟨3⟩ "B"]) ⟨⟨0⟩, .empty⟩
      (.hop (.hop (.start ⟨⟨0⟩, .empty⟩) ⟨⟨1⟩, "A", ⟨0⟩, ⟨2⟩⟩ ⟨⟨2⟩, .empty⟩)
        ⟨⟨3⟩, "B", ⟨2⟩, ⟨3⟩⟩ ⟨⟨3⟩, .empty⟩) := by
    refine ⟨rfl, by decide, ?_, by simp [Request.plan, Request.bounds], by decide⟩
    exact ⟨⟨rfl, Array.mem_toList_iff.mp (by decide), by decide, by decide, by decide⟩,
      Array.mem_toList_iff.mp (by decide), by decide, by decide, by decide⟩
  refine ⟨results, hsearch, ?_, fun hdraft => ?_⟩
  · obtain ⟨p, hp, hlast⟩ :=
      (hends ⟨3⟩ (by decide)).mpr ⟨⟨⟨3⟩, .empty⟩, by decide, by decide, _, hroute, rfl⟩
    exact ⟨p, hp, hlast, (hshortest p hp).2 _ hroute hlast.symm⟩
  · obtain ⟨u, hu, hincludes, -⟩ := (hends ⟨1⟩ (by decide)).mp hdraft
    obtain rfl := Option.some.inj
      (hu.symm.trans (show _ = some ⟨⟨1⟩, .ofList ["Draft"]⟩ by decide))
    revert hincludes
    decide

end WalkFilter
