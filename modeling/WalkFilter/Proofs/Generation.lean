/-
A walk as a sequence of generations.

Over a closed graph a walk meets no fault, and what it does to a level depends
on the paths of the level and on the vertices visited so far only.  The
generations are the iterates of that step:

* **`hops_eq`** — the hops from a path are those along its edges, of which the
  ones to visited vertices are left out where vertices are visited once;
* **`sweep_eq`** — a level gives its results and the generation after it,
  unless the limit is reached in it;
* **`search_eq`** — the results of a walk are those of its generations in
  turn, up to the limit.
-/
import WalkFilter.Proofs.Incidence
import WalkFilter.Search

namespace WalkFilter

theorem Graph.vertex?_id {g : Graph} {w : VertexId} {v : Vertex} (h : g.vertex? w = some v) :
    v.id = w := by
  obtain ⟨n, -, rfl⟩ := Option.map_eq_some_iff.mp h
  rfl

theorem Graph.isSome_node?_of_vertex? {g : Graph} {w : VertexId} {v : Vertex}
    (h : g.vertex? w = some v) : (g.node? w).isSome := by
  obtain ⟨n, hn, -⟩ := Option.map_eq_some_iff.mp h
  rw [hn]
  rfl

/-- An edge of a closed graph leads to a vertex. -/
theorem Graph.Closed.exists_vertex?_other {g : Graph} (hg : g.Closed) {e : Edge}
    (he : e ∈ g.edges) {u w : VertexId} (h : e.other u = some w) : ∃ v, g.vertex? w = some v := by
  have hends := hg.ends e he
  have hw : (g.node? w).isSome := by
    rw [Edge.other] at h
    split at h
    · cases h
      exact hends.2
    · split at h
      · cases h
        exact hends.1
      · cases h
  obtain ⟨n, hn⟩ := Option.isSome_iff_exists.mp hw
  exact ⟨⟨w, n.tags⟩, by rw [vertex?, hn]; rfl⟩

/-- The path ends on a vertex of the graph. -/
def Path.EndsIn (g : Graph) (p : Path) : Prop := g.vertex? p.last.id = some p.last

theorem Path.endsIn_start {g : Graph} {start : VertexId} {v : Vertex}
    (hv : g.vertex? start = some v) : (Path.start v).EndsIn g := by
  rw [EndsIn, last, Graph.vertex?_id hv, hv]

/-- The vertex where a path ends is known by its number. -/
theorem Path.EndsIn.last_eq {g : Graph} {p : Path} {v : Vertex} (hp : p.EndsIn g)
    (hv : g.vertex? v.id = some v) (hid : p.last.id = v.id) : p.last = v := by
  rw [EndsIn, hid, hv] at hp
  exact (Option.some.inj hp).symm

/-- The path one hop longer along an edge that is not walked yet. -/
def Path.along? (g : Graph) (p : Path) (e : Edge) : Option Path :=
  if p.walks e.id then none else ((e.other p.last.id).bind g.vertex?).map (.hop p e ·)

theorem Path.along?_eq_some_iff {g : Graph} {p q : Path} {e : Edge} :
    p.along? g e = some q ↔
      p.walks e.id = false ∧
        ∃ v, e.other p.last.id = some v.id ∧ g.vertex? v.id = some v ∧ q = .hop p e v := by
  unfold along?
  cases hw : p.walks e.id with
  | true => simp
  | false =>
    simp only [Bool.false_eq_true, if_false, Option.map_eq_some_iff, Option.bind_eq_some_iff,
      true_and]
    constructor
    · rintro ⟨v, ⟨w, hw, hv⟩, rfl⟩
      obtain rfl := Graph.vertex?_id hv
      exact ⟨v, hw, hv, rfl⟩
    · rintro ⟨v, hother, hv, rfl⟩
      exact ⟨v, ⟨v.id, hother, hv⟩, rfl⟩

namespace Plan

/-- The paths one hop longer, whatever has been visited. -/
def longer (plan : Plan) (g : Graph) (p : Path) : List Path :=
  if plan.lengthens p then
    (g.edgesAt p.last.id (plan.itinerary.stepsAt p.length)).filterMap (p.along? g)
  else []

/-- The results that are still wanted when `found` are there already.  The limit is looked at
after a result has been taken. -/
def cut (plan : Plan) (found : Nat) (results : List Path) : List Path :=
  match plan.bounds.limit with
  | none => results
  | some k => results.take (max 1 (k.toNat - found))

theorem cut_of_limit_none {plan : Plan} (h : plan.bounds.limit = none) (found : Nat)
    (results : List Path) : plan.cut found results = results := by
  rw [cut, h]

@[simp] theorem cut_nil (plan : Plan) (found : Nat) : plan.cut found [] = [] := by
  unfold cut
  split <;> simp

theorem cut_cons_of_isFull {plan : Plan} {found : Nat} (h : plan.isFull (found + 1)) (p : Path)
    (results : List Path) : plan.cut found (p :: results) = [p] := by
  unfold isFull at h
  unfold cut
  cases hlimit : plan.bounds.limit with
  | none => simp [hlimit] at h
  | some k =>
    simp only [hlimit, Option.any_some, decide_eq_true_eq] at h
    dsimp only
    rw [show max 1 (k.toNat - found) = 1 by omega]
    rfl

theorem cut_cons_of_not_isFull {plan : Plan} {found : Nat} (h : ¬ plan.isFull (found + 1))
    (p : Path) (results : List Path) :
    plan.cut found (p :: results) = p :: plan.cut (found + 1) results := by
  unfold isFull at h
  unfold cut
  cases hlimit : plan.bounds.limit with
  | none => rfl
  | some k =>
    simp only [hlimit, Option.any_some, decide_eq_true_eq] at h
    dsimp only
    rw [show max 1 (k.toNat - found) = max 1 (k.toNat - (found + 1)) + 1 by omega]
    rfl

end Plan

namespace Search

/-- The paths of a level and the vertices visited until then. -/
structure Generation where
  paths : List Path
  visited : List VertexId

/-- Of some paths those whose ends are new, where vertices are visited once. -/
def keep (once : Bool) : List Path → List VertexId → Generation
  | [], visited => ⟨[], visited⟩
  | q :: rest, visited =>
    if once && q.last.id ∈ visited then keep once rest visited
    else
      let r := keep once rest (if once then q.last.id :: visited else visited)
      ⟨q :: r.paths, r.visited⟩

/-- The generation after one. -/
def grow (g : Graph) (plan : Plan) (s : Generation) : Generation :=
  keep plan.visitsOnce (s.paths.flatMap (plan.longer g)) s.visited

/-- The generations of a walk from a vertex. -/
def generation (g : Graph) (plan : Plan) (v : Vertex) (n : Nat) : Generation :=
  (grow g plan)^[n] ⟨[.start v], [v.id]⟩

theorem generation_zero (g : Graph) (plan : Plan) (v : Vertex) :
    generation g plan v 0 = ⟨[.start v], [v.id]⟩ := rfl

theorem generation_succ (g : Graph) (plan : Plan) (v : Vertex) (n : Nat) :
    generation g plan v (n + 1) = grow g plan (generation g plan v n) :=
  Function.iterate_succ_apply' _ _ _

theorem keep_append (once : Bool) (l m : List Path) (visited : List VertexId) :
    keep once (l ++ m) visited
      = ⟨(keep once l visited).paths ++ (keep once m (keep once l visited).visited).paths,
          (keep once m (keep once l visited).visited).visited⟩ := by
  induction l generalizing visited with
  | nil => rfl
  | cons q rest ih =>
    rw [List.cons_append, keep, keep]
    split
    · exact ih visited
    · rw [ih]
      rfl

/-- The hops from a path along edges of a closed graph. -/
theorem hops_eq {g : Graph} (hg : g.Closed) (once : Bool) (p : Path) {edges : List Edge}
    (hedges : ∀ e ∈ edges, e ∈ g.edges) (visited : List VertexId) :
    hops g once p edges visited
      = .ok ((keep once (edges.filterMap (p.along? g)) visited).paths,
          (keep once (edges.filterMap (p.along? g)) visited).visited) := by
  induction edges generalizing visited with
  | nil => rfl
  | cons e rest ih =>
    have ih' := ih fun e he => hedges e (List.mem_cons_of_mem _ he)
    have he := hedges e (List.mem_cons_self ..)
    rw [hops, List.filterMap_cons]
    by_cases hwalks : p.walks e.id
    · rw [if_pos hwalks, ih', Path.along?, if_pos hwalks]
    · rw [if_neg hwalks, Path.along?, if_neg hwalks]
      cases hother : e.other p.last.id with
      | none => exact ih' visited
      | some w =>
        obtain ⟨v, hv⟩ := hg.exists_vertex?_other he hother
        have hid := Graph.vertex?_id hv
        simp only [Option.bind_some, hv, Option.map_some, keep, Path.last, hid]
        split
        · exact ih' visited
        · rw [ih']
          rfl

theorem successors_eq {g : Graph} (hg : g.Closed) (plan : Plan) {p : Path} (hp : p.EndsIn g)
    (visited : List VertexId) :
    successors g plan p visited
      = .ok ((keep plan.visitsOnce (plan.longer g p) visited).paths,
          (keep plan.visitsOnce (plan.longer g p) visited).visited) := by
  rw [successors, Plan.longer]
  split
  · rw [Itinerary.expand, Expansion.drain_eq,
      Graph.edgesOf_eq hg (Graph.isSome_node?_of_vertex? hp)]
    exact hops_eq hg _ p (fun e he => Graph.mem_edges_of_mem_edgesAt he) visited
  · rfl

/-- A longer path is a hop along an edge that is listed and not walked yet. -/
theorem mem_longer_cases {g : Graph} {plan : Plan} {p q : Path} (h : q ∈ plan.longer g p) :
    ∃ e w, q = .hop p e w ∧ plan.lengthens p = true ∧ p.walks e.id = false ∧
      e ∈ g.edgesAt p.last.id (plan.itinerary.stepsAt p.length) ∧
      e.other p.last.id = some w.id ∧ g.vertex? w.id = some w := by
  rw [Plan.longer] at h
  split at h
  · next hlengthens =>
    obtain ⟨e, he, hq⟩ := List.mem_filterMap.mp h
    obtain ⟨hwalks, w, hother, hw, rfl⟩ := Path.along?_eq_some_iff.mp hq
    exact ⟨e, w, rfl, hlengthens, hwalks, he, hother, hw⟩
  · simp at h

theorem endsIn_of_mem_longer {g : Graph} {plan : Plan} {p q : Path} (h : q ∈ plan.longer g p) :
    q.EndsIn g := by
  obtain ⟨e, w, rfl, -, -, -, -, hw⟩ := mem_longer_cases h
  exact hw

theorem paths_keep_sublist (once : Bool) (l : List Path) (visited : List VertexId) :
    (keep once l visited).paths.Sublist l := by
  induction l generalizing visited with
  | nil => exact List.Sublist.refl _
  | cons q rest ih =>
    rw [keep]
    split
    · exact (ih visited).cons q
    · exact (ih _).cons_cons q

/-- A path of the generation after one lengthens a path of it. -/
theorem exists_longer_of_mem_grow {g : Graph} {plan : Plan} {s : Generation} {p : Path}
    (h : p ∈ (grow g plan s).paths) : ∃ q ∈ s.paths, p ∈ plan.longer g q :=
  List.mem_flatMap.mp ((paths_keep_sublist _ _ _).subset h)

theorem exists_longer_of_mem_generation {g : Graph} {plan : Plan} {v : Vertex} {n : Nat} {p : Path}
    (h : p ∈ (generation g plan v (n + 1)).paths) :
    ∃ q ∈ (generation g plan v n).paths, p ∈ plan.longer g q := by
  rw [generation_succ] at h
  exact exists_longer_of_mem_grow h

theorem endsIn_of_mem_grow {g : Graph} {plan : Plan} {s : Generation} :
    ∀ p ∈ (grow g plan s).paths, p.EndsIn g := by
  intro p hp
  obtain ⟨q, -, hpq⟩ := exists_longer_of_mem_grow hp
  exact endsIn_of_mem_longer hpq

/-- The first path of a level is lengthened before the others. -/
theorem grow_cons (g : Graph) (plan : Plan) (p : Path) (rest : List Path)
    (visited : List VertexId) :
    let first := keep plan.visitsOnce (plan.longer g p) visited
    grow g plan ⟨p :: rest, visited⟩
      = ⟨first.paths ++ (grow g plan ⟨rest, first.visited⟩).paths,
          (grow g plan ⟨rest, first.visited⟩).visited⟩ := by
  simp only [grow, List.flatMap_cons, keep_append]

/-- What a level gives: its results up to the limit, and nothing more once the limit is reached
in it; otherwise the paths of the next generation as well. -/
theorem sweep_eq {g : Graph} (hg : g.Closed) (plan : Plan) {level : List Path}
    (hends : ∀ p ∈ level, p.EndsIn g) (found : Nat) (visited : List VertexId) :
    ∃ l, sweep g plan level found visited = .ok l ∧
      ((l.full = true ∧
          ∀ more, plan.cut found (level.filter plan.reports ++ more) = l.results) ∨
        (l.full = false ∧ l.results = level.filter plan.reports ∧
          ⟨l.next, l.visited⟩ = grow g plan ⟨level, visited⟩ ∧
          ∀ more, plan.cut found (level.filter plan.reports ++ more)
            = level.filter plan.reports
              ++ plan.cut (found + (level.filter plan.reports).length) more)) := by
  induction level generalizing found visited with
  | nil => exact ⟨_, rfl, Or.inr ⟨rfl, rfl, rfl, fun more => rfl⟩⟩
  | cons p rest ih =>
    have hp := hends p (List.mem_cons_self ..)
    have hrest : ∀ q ∈ rest, q.EndsIn g := fun q hq => hends q (List.mem_cons_of_mem _ hq)
    rw [sweep, successors_eq hg plan hp]
    by_cases hstop : (plan.reports p && plan.isFull (found + 1)) = true
    · rw [if_pos hstop]
      rw [Bool.and_eq_true] at hstop
      refine ⟨_, rfl, Or.inl ⟨rfl, fun more => ?_⟩⟩
      rw [List.filter_cons_of_pos hstop.1, List.cons_append, Plan.cut_cons_of_isFull hstop.2]
    · rw [if_neg hstop]
      obtain ⟨l, hl, hcases⟩ := ih hrest (if plan.reports p then found + 1 else found)
        (keep plan.visitsOnce (plan.longer g p) visited).visited
      simp only [Except.bind, hl, Except.map]
      refine ⟨_, rfl, ?_⟩
      simp only [grow_cons]
      by_cases hreports : plan.reports p
      · -- The path is a result, and the limit is not reached with it.
        have hfull : ¬ plan.isFull (found + 1) := by simpa [hreports] using hstop
        simp only [if_pos hreports] at hcases ⊢
        simp only [List.filter_cons_of_pos hreports, List.cons_append,
          Plan.cut_cons_of_not_isFull hfull]
        rcases hcases with ⟨hlfull, hcut⟩ | ⟨hlfull, hresults, hnext, hcut⟩
        · exact Or.inl ⟨hlfull, fun more => by rw [hcut]⟩
        · refine Or.inr ⟨hlfull, by rw [hresults], by rw [← hnext], fun more => ?_⟩
          rw [hcut, List.length_cons, Nat.add_assoc, Nat.add_comm 1]
      · simp only [if_neg hreports] at hcases ⊢
        simp only [List.filter_cons_of_neg hreports]
        rcases hcases with ⟨hlfull, hcut⟩ | ⟨hlfull, hresults, hnext, hcut⟩
        · exact Or.inl ⟨hlfull, hcut⟩
        · exact Or.inr ⟨hlfull, hresults, by rw [← hnext], hcut⟩

/-! ### The generations of a walk -/

theorem levels_unfold (g : Graph) (plan : Plan) {level : List Path} (hne : level ≠ [])
    (found : Nat) (visited : List VertexId) :
    levels g plan level found visited = match sweep g plan level found visited with
      | .error f => .error f
      | .ok l =>
        if l.full then .ok l.results
        else (levels g plan l.next (found + l.results.length) l.visited).map (l.results ++ ·) := by
  rw [levels, dif_neg hne]
  split <;> next h => simp [h]

theorem paths_iterate_grow_of_nil (g : Graph) (plan : Plan) {s : Generation} (h : s.paths = [])
    (n : Nat) : ((grow g plan)^[n] s).paths = [] := by
  induction n with
  | zero => exact h
  | succ n ih =>
    rw [Function.iterate_succ_apply', grow, ih]
    rfl

/-- The results of the generations from one on, up to the limit. -/
theorem levels_eq {g : Graph} (hg : g.Closed) (plan : Plan) {k : Nat} {s : Generation}
    (hends : ∀ p ∈ s.paths, p.EndsIn g) (hk : depthBound g s.paths ≤ k) (found : Nat) :
    levels g plan s.paths found s.visited
      = .ok (plan.cut found ((List.range k).flatMap fun n =>
          ((grow g plan)^[n] s).paths.filter plan.reports)) := by
  induction k generalizing s found with
  | zero =>
    have hnil : s.paths = [] := by
      refine List.eq_nil_iff_forall_not_mem.mpr fun p hp => ?_
      have hle := le_depthBound (g := g) hp
      omega
    rw [hnil, levels, dif_pos rfl, List.range_zero, List.flatMap_nil, Plan.cut_nil]
  | succ k ih =>
    by_cases hnil : s.paths = []
    · have hempty : ∀ n ∈ List.range (k + 1),
          ((grow g plan)^[n] s).paths.filter plan.reports = [] := fun n _ => by
        rw [paths_iterate_grow_of_nil g plan hnil, List.filter_nil]
      rw [List.flatMap_eq_nil_iff.mpr hempty, Plan.cut_nil, hnil, levels, dif_pos rfl]
    · obtain ⟨l, hl, hcases⟩ := sweep_eq hg plan hends found s.visited
      have hlt := depthBound_lt hnil (unwalked_lt_of_mem_sweep hl)
      rw [levels_unfold g plan hnil, hl, List.range_succ_eq_map, List.flatMap_cons,
        List.flatMap_map]
      rcases hcases with ⟨hfull, hcut⟩ | ⟨hfull, hresults, hnext, hcut⟩
      · simp only [hfull, if_true]
        exact congrArg _ (hcut _).symm
      · -- The walk goes on with the next generation, for which fewer levels are left.
        have hrest := ih (s := ⟨l.next, l.visited⟩) (hnext ▸ endsIn_of_mem_grow)
          (Nat.le_of_lt_succ (Nat.lt_of_lt_of_le hlt hk)) (found + l.results.length)
        simp only [hfull, Bool.false_eq_true, if_false, hrest, Except.map]
        rw [hnext, hresults]
        exact congrArg _ (hcut _).symm

theorem unwalked_le (g : Graph) (p : Path) : unwalked g p ≤ g.edges.size :=
  (List.length_filter_le _ _).trans_eq Array.length_toList

theorem depthBound_start_le (g : Graph) (v : Vertex) :
    depthBound g [.start v] ≤ g.edges.size + 1 := by
  have hle := unwalked_le g (.start v)
  simp only [depthBound, List.map_cons, List.map_nil, List.foldr_cons, List.foldr_nil]
  omega

end Search

/-- **The results of a walk are those of its generations**, one after the other, up to the
limit.  There are no more generations than a path can walk edges, and the first one. -/
theorem search_eq {g : Graph} (hg : g.Closed) (plan : Plan) {start : VertexId} {v : Vertex}
    (hv : g.vertex? start = some v) :
    search g plan start
      = .ok (plan.cut 0 ((List.range (g.edges.size + 1)).flatMap fun n =>
          (Search.generation g plan v n).paths.filter plan.reports)) := by
  have hid := Graph.vertex?_id hv
  have hends : ∀ p ∈ [Path.start v], p.EndsIn g := by
    intro p hp
    rw [List.mem_singleton.mp hp]
    exact Path.endsIn_start hv
  have hlevels := Search.levels_eq hg plan (s := ⟨[.start v], [v.id]⟩) hends
    (Search.depthBound_start_le g v) 0
  simp only [search, hv]
  rw [← hid]
  exact hlevels

theorem search_eq_of_limit_none {g : Graph} (hg : g.Closed) {plan : Plan} {start : VertexId}
    {v : Vertex} (hv : g.vertex? start = some v) (hlimit : plan.bounds.limit = none) :
    search g plan start
      = .ok ((List.range (g.edges.size + 1)).flatMap fun n =>
          (Search.generation g plan v n).paths.filter plan.reports) := by
  rw [search_eq hg plan hv, Plan.cut_of_limit_none hlimit]

namespace Search

/-- A path of generation `n` could walk `n` edges fewer than the graph has. -/
theorem unwalked_add_le {g : Graph} {plan : Plan} {v : Vertex} {n : Nat} {p : Path}
    (h : p ∈ (generation g plan v n).paths) : unwalked g p + n ≤ g.edges.size := by
  induction n generalizing p with
  | zero => exact unwalked_le g p
  | succ n ih =>
    obtain ⟨q, hq, hpq⟩ := exists_longer_of_mem_generation h
    obtain ⟨e, w, rfl, -, hwalks, he, -, -⟩ := mem_longer_cases hpq
    have hlt := unwalked_hop_lt (v := w) (Graph.mem_edges_of_mem_edgesAt he) hwalks
    have hle := ih hq
    omega

/-- Without a limit a path is a result when it is one in some generation. -/
theorem mem_results_iff {g : Graph} {plan : Plan} {v : Vertex} {p : Path} :
    p ∈ (List.range (g.edges.size + 1)).flatMap (fun n =>
        (generation g plan v n).paths.filter plan.reports)
      ↔ plan.reports p ∧ ∃ n, p ∈ (generation g plan v n).paths := by
  simp only [List.mem_flatMap, List.mem_range, List.mem_filter]
  constructor
  · rintro ⟨n, -, hp, hreports⟩
    exact ⟨hreports, n, hp⟩
  · rintro ⟨hreports, n, hp⟩
    have hle := unwalked_add_le hp
    exact ⟨n, by omega, hp, hreports⟩

/-- Generation `n` holds paths of length `n`. -/
theorem length_of_mem_generation {g : Graph} {plan : Plan} {v : Vertex} {n : Nat} {p : Path}
    (h : p ∈ (generation g plan v n).paths) : p.length = n := by
  induction n generalizing p with
  | zero =>
    rw [List.mem_singleton.mp h]
    rfl
  | succ n ih =>
    obtain ⟨q, hq, hpq⟩ := exists_longer_of_mem_generation h
    obtain ⟨e, w, rfl, -⟩ := mem_longer_cases hpq
    rw [Path.length, ih hq]

/-- The shorter results come before the longer ones. -/
theorem pairwise_length_results {g : Graph} {plan : Plan} {v : Vertex} {k : Nat} :
    ((List.range k).flatMap fun n => (generation g plan v n).paths.filter plan.reports).Pairwise
      fun p p' => p.length ≤ p'.length := by
  have hlength : ∀ n, ∀ p ∈ (generation g plan v n).paths.filter plan.reports, p.length = n :=
    fun n p hp => length_of_mem_generation (List.mem_filter.mp hp).1
  refine List.pairwise_flatMap.mpr ⟨fun n _ => ?_, ?_⟩
  · refine List.pairwise_of_forall_mem_list fun p hp p' hp' => ?_
    rw [hlength n p hp, hlength n p' hp']
  · refine List.pairwise_lt_range.imp fun hlt p hp p' hp' => ?_
    rw [hlength _ p hp, hlength _ p' hp']
    exact Nat.le_of_lt hlt

theorem mem_of_mem_cut {plan : Plan} {found : Nat} {results : List Path} {p : Path}
    (h : p ∈ plan.cut found results) : p ∈ results := by
  rw [Plan.cut] at h
  split at h
  · exact h
  · exact List.mem_of_mem_take h

/-- A result is included and long enough. -/
theorem reports_of_mem_search {g : Graph} (hg : g.Closed) {plan : Plan} {start : VertexId}
    {v : Vertex} (hv : g.vertex? start = some v) {results : List Path}
    (h : search g plan start = .ok results) {p : Path} (hp : p ∈ results) :
    plan.reports p = true := by
  rw [search_eq hg plan hv] at h
  cases h
  exact (mem_results_iff.mp (mem_of_mem_cut hp)).1

end Search

end WalkFilter
