/-
Walking a graph by a plan, breadth first.

A walk looks at its paths level by level.  Each path is decided; it is a
result when it is included and long enough, and it is lengthened by every
edge that the itinerary lists, unless the decision or the bounds end it.  No
path walks an edge twice, so a level holds fewer edges still to walk than the
one before, and every walk ends.
-/
import WalkFilter.Graph.Basic
import WalkFilter.Request.Plan

namespace WalkFilter

/-- The edges to try from the end of a path, as an expansion over any source. -/
def Itinerary.expand {κ : Type} (i : Itinerary) (p : Path) : Expansion κ :=
  .start p.last.id (i.stepsAt p.length)

namespace Plan

/-- Is the path a result? -/
def reports (plan : Plan) (p : Path) : Bool :=
  (plan.evaluator.decidePath p).includes && plan.bounds.minLevel.toNat ≤ p.length

/-- Is the path lengthened? -/
def lengthens (plan : Plan) (p : Path) : Bool :=
  (plan.evaluator.decidePath p).continues && plan.bounds.maxLevel.all (p.length < ·.toNat)

/-- Is every vertex reached only once? -/
def visitsOnce (plan : Plan) : Bool := plan.bounds.uniqueness = .nodeGlobal

/-- With this many results the walk is over. -/
def isFull (plan : Plan) (found : Nat) : Bool := plan.bounds.limit.any (·.toNat ≤ found)

end Plan

namespace Search

/-- The paths one hop longer than `p` along the listed edges, and the vertices visited after
them.  An edge of the path is passed over, and so is an end already visited, where vertices are
visited once. -/
def hops (g : Graph) (once : Bool) (p : Path) :
    List Edge → List VertexId → Except Fault (List Path × List VertexId)
  | [], visited => .ok ([], visited)
  | e :: rest, visited =>
    if p.walks e.id then hops g once p rest visited
    else match e.other p.last.id with
      | none => hops g once p rest visited
      | some w =>
        if once && w ∈ visited then hops g once p rest visited
        else match g.vertex? w with
          | none => .error (.vertexNotFound w)
          | some v =>
            (hops g once p rest (if once then w :: visited else visited)).map fun r =>
              (.hop p e v :: r.1, r.2)

/-- The paths that lengthen `p`, and the vertices visited after them. -/
def successors (g : Graph) (plan : Plan) (p : Path) (visited : List VertexId) :
    Except Fault (List Path × List VertexId) :=
  if plan.lengthens p then
    (Expansion.drain g.source (plan.itinerary.expand p)).bind fun edges =>
      hops g plan.visitsOnce p edges visited
  else .ok ([], visited)

/-- What looking at one level gives. -/
structure Level where
  results : List Path
  /-- the paths of the next level -/
  next : List Path
  visited : List VertexId
  /-- the limit has been reached -/
  full : Bool

/-- Look at the paths of one level in order, `found` results being there already. -/
def sweep (g : Graph) (plan : Plan) :
    List Path → Nat → List VertexId → Except Fault Level
  | [], _, visited => .ok ⟨[], [], visited, false⟩
  | p :: rest, found, visited =>
    if plan.reports p && plan.isFull (found + 1) then .ok ⟨[p], [], visited, true⟩
    else
      (successors g plan p visited).bind fun (longer, visited) =>
        (sweep g plan rest (if plan.reports p then found + 1 else found) visited).map fun l =>
          { l with
            results := if plan.reports p then p :: l.results else l.results
            next := longer ++ l.next }

/-- The number of edges that a path could still walk. -/
def unwalked (g : Graph) (p : Path) : Nat := (g.edges.toList.filter (!p.walks ·.id)).length

/-- A bound on the levels still to come. -/
def depthBound (g : Graph) (level : List Path) : Nat :=
  (level.map (unwalked g · + 1)).foldr max 0

theorem unwalked_hop_lt {g : Graph} {p : Path} {e : Edge} {v : Vertex} (he : e ∈ g.edges)
    (hp : p.walks e.id = false) : unwalked g (.hop p e v) < unwalked g p := by
  -- What is left after the hop is what was left before it, without the edges named like `e`.
  have hfilter : g.edges.toList.filter (!(Path.hop p e v).walks ·.id)
      = (g.edges.toList.filter (!p.walks ·.id)).filter (fun x => !decide (e.id = x.id)) := by
    rw [List.filter_filter]
    congr 1
    funext x
    simp [Path.walks, Bool.and_comm]
  rw [unwalked, unwalked, hfilter]
  -- `e` itself was left before the hop.
  exact List.length_filter_lt_length_iff_exists.2
    ⟨e, by simp [he, hp], by simp⟩

theorem le_depthBound {g : Graph} {level : List Path} {p : Path} (h : p ∈ level) :
    unwalked g p + 1 ≤ depthBound g level := by
  induction level with
  | nil => simp at h
  | cons q rest ih =>
    simp only [depthBound, List.map_cons, List.foldr_cons]
    rcases List.mem_cons.1 h with rfl | h
    · exact Nat.le_max_left _ _
    · exact Nat.le_trans (ih h) (Nat.le_max_right _ _)

theorem depthBound_lt {g : Graph} {next level : List Path} (hne : level ≠ [])
    (h : ∀ q ∈ next, ∃ p ∈ level, unwalked g q < unwalked g p) :
    depthBound g next < depthBound g level := by
  induction next with
  | nil =>
    -- No path is left to lengthen, and the bound of a level with a path is positive.
    obtain ⟨p, rest, rfl⟩ := List.exists_cons_of_ne_nil hne
    exact Nat.lt_of_lt_of_le (Nat.succ_pos _) (le_depthBound (g := g) (by simp : p ∈ p :: rest))
  | cons q rest ih =>
    simp only [depthBound, List.map_cons, List.foldr_cons]
    obtain ⟨p, hp, hlt⟩ := h q (by simp)
    refine Nat.max_lt.2 ⟨Nat.lt_of_lt_of_le (Nat.succ_lt_succ hlt) (le_depthBound hp), ?_⟩
    exact ih fun q hq => h q (List.mem_cons_of_mem _ hq)

/-- A longer path walks one more edge of the graph. -/
theorem unwalked_lt_of_mem_hops {g : Graph} {once : Bool} {p : Path} {edges : List Edge}
    {visited visited' : List VertexId} {longer : List Path} (hedges : ∀ e ∈ edges, e ∈ g.edges)
    (h : hops g once p edges visited = .ok (longer, visited')) :
    ∀ q ∈ longer, unwalked g q < unwalked g p := by
  induction edges generalizing visited longer with
  | nil => cases h; simp
  | cons e rest ih =>
    have ih' := fun {visited longer} => @ih visited longer
      fun e he => hedges e (List.mem_cons_of_mem _ he)
    rw [hops] at h
    split at h
    · exact ih' h
    · next hw =>
      split at h
      · exact ih' h
      · next w _ =>
        split at h
        · exact ih' h
        · split at h
          · cases h
          · next v _ =>
            cases hr : hops g once p rest (if once then w :: visited else visited) with
            | error f => rw [hr] at h; cases h
            | ok r =>
              rw [hr] at h
              cases h
              -- The hop along `e` comes first, and the induction covers the others.
              intro q hq
              rcases List.mem_cons.1 hq with rfl | hq
              · exact unwalked_hop_lt (hedges e (by simp)) (by simpa using hw)
              · exact ih' hr q hq

theorem unwalked_lt_of_mem_successors {g : Graph} {plan : Plan} {p : Path}
    {visited visited' : List VertexId} {longer : List Path}
    (h : successors g plan p visited = .ok (longer, visited')) :
    ∀ q ∈ longer, unwalked g q < unwalked g p := by
  unfold successors at h
  split at h
  · cases hd : Expansion.drain g.source (plan.itinerary.expand p) with
    | error f => rw [hd] at h; cases h
    | ok edges =>
      rw [hd] at h
      -- What an expansion gives are edges of its steps, and those are edges of the graph.
      rw [Itinerary.expand, Expansion.drain_eq] at hd
      exact unwalked_lt_of_mem_hops (Graph.mem_edges_of_edgesOf hd) h
  · cases h; simp

theorem unwalked_lt_of_mem_sweep {g : Graph} {plan : Plan} {level : List Path} {found : Nat}
    {visited : List VertexId} {l : Level} (h : sweep g plan level found visited = .ok l) :
    ∀ q ∈ l.next, ∃ p ∈ level, unwalked g q < unwalked g p := by
  induction level generalizing found visited l with
  | nil => cases h; simp
  | cons p rest ih =>
    rw [sweep] at h
    split at h
    · cases h; simp
    · cases hs : successors g plan p visited with
      | error f => rw [hs] at h; cases h
      | ok r =>
        rw [hs] at h
        simp only [Except.bind] at h
        cases hr : sweep g plan rest (if plan.reports p then found + 1 else found) r.2 with
        | error f => rw [hr] at h; cases h
        | ok l' =>
          rw [hr] at h
          cases h
          -- A path of the next level lengthens `p` or a path after it.
          intro q hq
          rcases List.mem_append.1 hq with hq | hq
          · exact ⟨p, by simp, unwalked_lt_of_mem_successors hs q hq⟩
          · obtain ⟨p', hp', hlt⟩ := ih hr q hq
            exact ⟨p', List.mem_cons_of_mem _ hp', hlt⟩

/-- The results of a level and of all levels after it. -/
def levels (g : Graph) (plan : Plan) (level : List Path) (found : Nat)
    (visited : List VertexId) : Except Fault (List Path) :=
  if _hne : level = [] then .ok []
  else match _h : sweep g plan level found visited with
    | .error f => .error f
    | .ok l =>
      if l.full then .ok l.results
      else
        (levels g plan l.next (found + l.results.length) l.visited).map (l.results ++ ·)
termination_by depthBound g level
decreasing_by exact depthBound_lt _hne (unwalked_lt_of_mem_sweep _h)

end Search

/-- The results of a walk by a plan from a start vertex, in the order in which they are found. -/
def search (g : Graph) (plan : Plan) (start : VertexId) : Except Fault (List Path) :=
  match g.vertex? start with
  | none => .error (.vertexNotFound start)
  | some v => Search.levels g plan [.start v] 0 [start]

end WalkFilter
