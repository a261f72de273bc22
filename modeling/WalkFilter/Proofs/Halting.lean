/-
A walk with a queue, and that it halts.

The walk that takes one path after the other from a queue is a machine here:
a step takes a path or asks the expansion of the path at hand for one edge,
and nothing in it bounds the number of steps.  `Halts` says that the steps
come to an end, and with which result.

* **`halts_sweep`** — from a level the machine comes to the level after it;
* **`search_halts`** — the machine halts with the result of the search, which
  is a fault only for a start vertex that is missing.
-/
import WalkFilter.Proofs.Generation

namespace WalkFilter

theorem exists_of_map_eq_ok {α β : Type} {x : Except Fault α} {f : α → β} {b : β}
    (h : x.map f = .ok b) : ∃ a, x = .ok a ∧ f a = b := by
  cases x with
  | error e => cases h
  | ok a => exact ⟨a, rfl, Except.ok.inj h⟩

/-- An expansion that is drained without a fault is at its end, or it answers with the first of
its edges and has the others left. -/
theorem Expansion.drain_ok_cases {κ : Type} {src : FiniteSource κ} {x : Expansion κ}
    {edges : List Edge} (h : drain src x = .ok edges) :
    ((next src.toEdgeSource x).item = none ∧ edges = []) ∨
      ∃ e rest, (next src.toEdgeSource x).item = some (.ok e) ∧
        drain src (next src.toEdgeSource x).state = .ok rest ∧ edges = e :: rest := by
  rw [drain_unfold] at h
  split at h
  · next hitem => exact Or.inl ⟨hitem, (Except.ok.inj h).symm⟩
  · cases h
  · next e hitem =>
    obtain ⟨rest, hrest, rfl⟩ := exists_of_map_eq_ok h
    exact Or.inr ⟨e, rest, hitem, hrest, rfl⟩

namespace Search

/-- A walk between two steps. -/
structure Walk where
  /-- the paths still to look at -/
  queue : List Path
  visited : List VertexId
  results : List Path
  /-- the path that is lengthened, and the expansion that gives the edges for it -/
  current : Option (Path × Expansion Graph.Cursor)

/-- Where a step leads. -/
inductive Progress where
  | goesOn (w : Walk)
  | ends (result : Except Fault (List Path))

/-- A walk begins with the path of its start vertex. -/
def Progress.begin (g : Graph) (start : VertexId) : Progress :=
  match g.vertex? start with
  | none => .ends (.error (.vertexNotFound start))
  | some v => .goesOn ⟨[.start v], [start], [], none⟩

namespace Walk

/-- Ask for one edge, and put the path that is longer by it at the end of the queue. -/
def lengthen (g : Graph) (plan : Plan) (w : Walk) (p : Path) (x : Expansion Graph.Cursor) :
    Progress :=
  let turn := x.next g.source.toEdgeSource
  match turn.item with
  | none => .goesOn { w with current := none }
  | some (.error f) => .ends (.error f)
  | some (.ok e) =>
    match hops g plan.visitsOnce p [e] w.visited with
    | .error f => .ends (.error f)
    | .ok (longer, visited) =>
      .goesOn { w with queue := w.queue ++ longer, visited, current := some (p, turn.state) }

/-- Look at the first path of the queue. -/
def look (plan : Plan) (w : Walk) (p : Path) (rest : List Path) : Progress :=
  let results := if plan.reports p then w.results ++ [p] else w.results
  if plan.reports p && plan.isFull results.length then .ends (.ok results)
  else .goesOn
    { w with
      queue := rest
      results
      current := if plan.lengthens p then some (p, plan.itinerary.expand p) else none }

/-- One step of a walk. -/
def step (g : Graph) (plan : Plan) (w : Walk) : Progress :=
  match w.current, w.queue with
  | some (p, x), _ => w.lengthen g plan p x
  | none, p :: rest => w.look plan p rest
  | none, [] => .ends (.ok w.results)

variable {g : Graph} {plan : Plan} {queue results : List Path} {visited : List VertexId}

theorem step_current {p : Path} {x : Expansion Graph.Cursor} :
    step g plan ⟨queue, visited, results, some (p, x)⟩
      = lengthen g plan ⟨queue, visited, results, some (p, x)⟩ p x := rfl

theorem step_queue {p : Path} :
    step g plan ⟨p :: queue, visited, results, none⟩
      = look plan ⟨p :: queue, visited, results, none⟩ p queue := rfl

theorem step_nil : step g plan ⟨[], visited, results, none⟩ = .ends (.ok results) := rfl

end Walk

/-- The steps of a walk come to an end with this result. -/
inductive Halts (g : Graph) (plan : Plan) : Progress → Except Fault (List Path) → Prop where
  | ends (r : Except Fault (List Path)) : Halts g plan (.ends r) r
  | step {w : Walk} {r : Except Fault (List Path)} :
    Halts g plan (w.step g plan) r → Halts g plan (.goesOn w) r

variable {g : Graph} {plan : Plan}

/-- A walk halts with one result only. -/
theorem Halts.unique {s : Progress} {r r' : Except Fault (List Path)} (h : Halts g plan s r)
    (h' : Halts g plan s r') : r = r' := by
  induction h with
  | ends r =>
    cases h'
    rfl
  | step _ ih =>
    cases h' with
    | step h' => exact ih h'

/-! ### From path to path -/

/-- A walk that lengthens a path comes to the end of its edges. -/
theorem halts_lengthen (hg : g.Closed) {p : Path} {edges : List Edge}
    (hedges : ∀ e ∈ edges, e ∈ g.edges) {x : Expansion Graph.Cursor}
    (hdrain : Expansion.drain g.source x = .ok edges) {queue results : List Path}
    {visited : List VertexId} {r : Except Fault (List Path)}
    (h : Halts g plan (.goesOn
      ⟨queue ++ (keep plan.visitsOnce (edges.filterMap (p.along? g)) visited).paths,
        (keep plan.visitsOnce (edges.filterMap (p.along? g)) visited).visited, results, none⟩) r) :
    Halts g plan (.goesOn ⟨queue, visited, results, some (p, x)⟩) r := by
  induction edges generalizing x queue visited with
  | nil =>
    obtain ⟨hitem, -⟩ | ⟨e, rest, -, -, hedges⟩ := Expansion.drain_ok_cases hdrain
    · refine .step ?_
      rw [Walk.step_current, Walk.lengthen, hitem]
      rwa [List.filterMap_nil, keep, List.append_nil] at h
    · cases hedges
  | cons e rest ih =>
    obtain ⟨-, hnil⟩ | ⟨e', rest', hitem, hdrain, hcons⟩ := Expansion.drain_ok_cases hdrain
    · cases hnil
    cases hcons
    have he : ∀ e' ∈ [e], e' ∈ g.edges :=
      fun e' he' => hedges e' (List.mem_singleton.mp he' ▸ List.mem_cons_self ..)
    have hrest : ∀ e' ∈ rest, e' ∈ g.edges := fun e' he' => hedges e' (List.mem_cons_of_mem _ he')
    refine .step ?_
    rw [Walk.step_current, Walk.lengthen, hitem]
    dsimp only
    rw [hops_eq hg plan.visitsOnce p he visited]
    refine ih hrest hdrain ?_
    -- The hop along `e` is in the queue, and the hops along the others are still to come.
    rw [show e :: rest = [e] ++ rest from rfl, List.filterMap_append, keep_append,
      ← List.append_assoc] at h
    exact h

/-- A walk that goes on after a path has the longer paths at the end of its queue. -/
theorem halts_look (hg : g.Closed) {p : Path} (hp : p.EndsIn g) {rest results : List Path}
    {visited : List VertexId} {r : Except Fault (List Path)}
    (hfull : ¬ (plan.reports p && plan.isFull (results.length + 1)) = true)
    (h : Halts g plan (.goesOn
      ⟨rest ++ (keep plan.visitsOnce (plan.longer g p) visited).paths,
        (keep plan.visitsOnce (plan.longer g p) visited).visited,
        if plan.reports p then results ++ [p] else results, none⟩) r) :
    Halts g plan (.goesOn ⟨p :: rest, visited, results, none⟩) r := by
  have hlook : ¬ (plan.reports p &&
      plan.isFull (if plan.reports p then results ++ [p] else results).length) = true := by
    cases hreports : plan.reports p with
    | false => simp
    | true => simpa [hreports] using hfull
  refine .step ?_
  rw [Walk.step_queue, Walk.look, if_neg hlook]
  rw [Plan.longer] at h
  by_cases hlengthens : plan.lengthens p
  · rw [if_pos hlengthens] at h ⊢
    refine halts_lengthen hg (fun e he => Graph.mem_edges_of_mem_edgesAt he) ?_ h
    rw [Itinerary.expand, Expansion.drain_eq,
      Graph.edgesOf_eq hg (Graph.isSome_node?_of_vertex? hp)]
  · rw [if_neg hlengthens] at h ⊢
    rwa [keep, List.append_nil] at h

/-! ### From level to level -/

/-- From the paths of a level at the front of the queue a walk comes to the limit, or to those
of the next level at the end of the queue. -/
theorem halts_sweep (hg : g.Closed) {level : List Path} (hends : ∀ p ∈ level, p.EndsIn g)
    {results : List Path} {visited : List VertexId} {l : Level}
    (hl : sweep g plan level results.length visited = .ok l) (more : List Path)
    {r : Except Fault (List Path)}
    (h : if l.full then r = .ok (results ++ l.results)
      else Halts g plan (.goesOn ⟨more ++ l.next, l.visited, results ++ l.results, none⟩) r) :
    Halts g plan (.goesOn ⟨level ++ more, visited, results, none⟩) r := by
  induction level generalizing results visited l more with
  | nil =>
    cases hl
    simpa using h
  | cons p rest ih =>
    have hp := hends p (List.mem_cons_self ..)
    have hrest : ∀ q ∈ rest, q.EndsIn g := fun q hq => hends q (List.mem_cons_of_mem _ hq)
    rw [sweep, successors_eq hg plan hp] at hl
    rw [List.cons_append]
    by_cases hfull : (plan.reports p && plan.isFull (results.length + 1)) = true
    · rw [if_pos hfull] at hl
      cases hl
      rw [Bool.and_eq_true] at hfull
      rw [if_pos rfl] at h
      subst h
      refine .step ?_
      rw [Walk.step_queue, Walk.look]
      simp only [hfull.1, if_true, List.length_append, List.length_singleton, hfull.2,
        Bool.and_self]
      exact .ends _
    · rw [if_neg hfull] at hl
      -- The longer paths are at the end of the queue when the walk comes to the rest of the level.
      refine halts_look hg hp hfull ?_
      rw [List.append_assoc]
      dsimp only [Except.bind] at hl
      obtain ⟨l', hl', rfl⟩ := exists_of_map_eq_ok hl
      have hcount : (if plan.reports p then results ++ [p] else results).length
          = if plan.reports p then results.length + 1 else results.length := by
        split
        · exact List.length_append
        · rfl
      refine ih hrest (hcount ▸ hl') _ ?_
      have hresults : (if plan.reports p then results ++ [p] else results) ++ l'.results
          = results ++ if plan.reports p then p :: l'.results else l'.results := by
        split
        · rw [List.append_assoc, List.singleton_append]
        · rfl
      rw [hresults, List.append_assoc]
      exact h

/-- From a level a walk comes to the end of all levels after it. -/
theorem halts_levels (hg : g.Closed) (plan : Plan) (level : List Path)
    (hends : ∀ p ∈ level, p.EndsIn g) (results : List Path) (visited : List VertexId) :
    ∃ more, levels g plan level results.length visited = .ok more ∧
      Halts g plan (.goesOn ⟨level, visited, results, none⟩) (.ok (results ++ more)) := by
  by_cases hne : level = []
  · subst hne
    refine ⟨[], by rw [levels, dif_pos rfl], .step ?_⟩
    rw [Walk.step_nil, List.append_nil]
    exact .ends _
  · obtain ⟨l, hl, hcases⟩ := sweep_eq hg plan hends results.length visited
    -- Each path of the next level has fewer edges left to walk, so the recursion ends.
    have hlt := depthBound_lt hne (unwalked_lt_of_mem_sweep hl)
    have hsweep := fun {r} => halts_sweep hg hends hl [] (r := r)
    rw [List.append_nil] at hsweep
    rw [levels_unfold g plan hne, hl]
    cases hfull : l.full with
    | true => exact ⟨l.results, by simp [hfull], hsweep (by rw [if_pos hfull])⟩
    | false =>
      obtain ⟨hfull', -⟩ | ⟨-, -, hnext, -⟩ := hcases
      · rw [hfull] at hfull'
        cases hfull'
      have hnextEnds : ∀ p ∈ l.next, p.EndsIn g := by
        have hpaths : l.next = (grow g plan ⟨level, visited⟩).paths := by rw [← hnext]
        rw [hpaths]
        exact endsIn_of_mem_grow
      obtain ⟨more, hmore, hhalts⟩ :=
        halts_levels hg plan l.next hnextEnds (results ++ l.results) l.visited
      refine ⟨l.results ++ more, ?_, hsweep ?_⟩
      · rw [List.length_append] at hmore
        simp [hfull, hmore, Except.map]
      · rw [hfull, if_neg Bool.false_ne_true, List.nil_append, ← List.append_assoc]
        exact hhalts
termination_by depthBound g level

/-- A walk over a closed graph halts with the result of the search. -/
theorem halts_search (hg : g.Closed) (plan : Plan) (start : VertexId) :
    Halts g plan (.begin g start) (search g plan start) := by
  unfold search Progress.begin
  cases hv : g.vertex? start with
  | none => exact .ends _
  | some v =>
    have hends : ∀ p ∈ [Path.start v], p.EndsIn g := by
      intro p hp
      rw [List.mem_singleton.mp hp]
      exact Path.endsIn_start hv
    obtain ⟨more, hmore, hhalts⟩ := halts_levels hg plan _ hends [] [start]
    dsimp only
    rw [show levels g plan [Path.start v] 0 [start] = .ok more from hmore]
    exact hhalts

end Search

/-- **Every walk over a built graph halts**, with one result only, and that is the one of the
search.  It is a fault just if the start vertex is missing, and then it names that vertex. -/
theorem search_halts (changes : List Graph.Change) (plan : Plan) (start : VertexId) :
    let g := Graph.build changes
    (∀ r, Search.Halts g plan (.begin g start) r ↔ r = search g plan start) ∧
      ((∃ results, search g plan start = .ok results) ↔ (g.vertex? start).isSome) ∧
      ∀ f, search g plan start = .error f
        ↔ f = .vertexNotFound start ∧ g.vertex? start = none := by
  intro g
  have hg : g.Closed := Graph.closed_build changes
  have hhalts := Search.halts_search hg plan start
  refine ⟨fun r => ⟨fun h => h.unique hhalts, fun h => h ▸ hhalts⟩, ?_⟩
  cases hv : g.vertex? start with
  | none =>
    have herror : search g plan start = .error (.vertexNotFound start) := by rw [search, hv]
    rw [herror]
    exact ⟨by simp, by simp [eq_comm]⟩
  | some v =>
    rw [search_eq hg plan hv]
    exact ⟨by simp, by simp⟩

end WalkFilter
