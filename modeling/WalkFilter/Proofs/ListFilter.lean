/-
Lists of vertices as filters of whole walks.

The lists of a request take part in every decision, so they cut branches off
the walk while it goes on.  What is left is what one would get by looking at
the results of the walk without lists afterwards:

* **`exempts_filterStart`** — a list leaves the end of a path unchecked just if
  it is the start and the start is not filtered;
* **`decide_plan`** — a plan decides as its tag sequence and as the lists of
  the request say, both together;
* **`passes_lists_iff`** — a path passes the lists when the vertices on it do;
* **`search_lists`** — the walk of a request with lists finds the results of
  the walk without them that pass.
-/
import WalkFilter.Proofs.Conjunction

namespace WalkFilter

namespace Request

/-- A path of this length ends on the start, and the start is not filtered. -/
def IsExempt (q : Request) (depth : Nat) : Prop := depth = 0 ∧ q.filterStart = false

instance (q : Request) (depth : Nat) : Decidable (q.IsExempt depth) :=
  inferInstanceAs (Decidable (_ ∧ _))

/-- Is the vertex, as the end of a path of this length, inside the whitelist? -/
def allows (q : Request) (depth : Nat) (v : VertexId) : Bool :=
  q.IsExempt depth || q.whitelist.isEmpty || v ∈ q.whitelist

/-- Is the vertex outside the blacklist? -/
def spares (q : Request) (depth : Nat) (v : VertexId) : Bool :=
  q.IsExempt depth || v ∉ q.blacklist

/-- Do the ends and the terminators make the path a result? -/
def endsAt (q : Request) (depth : Nat) (v : VertexId) : Bool :=
  (q.ends.isEmpty && q.terminators.isEmpty) ||
    (¬ q.IsExempt depth && q.minLevel.toNat ≤ depth && (v ∈ q.ends || v ∈ q.terminators))

/-- Do the terminators let the walk go on? -/
def goesThrough (q : Request) (depth : Nat) (v : VertexId) : Bool :=
  q.IsExempt depth || depth < q.minLevel.toNat || v ∉ q.terminators

/-- What the lists of a request say of a path of this length that ends on `v`. -/
def decideLists (q : Request) (depth : Nat) (v : VertexId) : Decision where
  includes := q.allows depth v && q.spares depth v && q.endsAt depth v
  continues := q.allows depth v && q.spares depth v && q.goesThrough depth v

/-- The lists of a request leave unchecked what is exempt. -/
theorem exempts_filterStart (q : Request) (depth : Nat) :
    VertexList.exempts depth q.filterStart = decide (q.IsExempt depth) := by
  rw [VertexList.exempts, Bool.eq_iff_iff, Bool.and_eq_true, decide_eq_true_eq, Bool.not_eq_true',
    decide_eq_true_eq, IsExempt]

theorem decide_whitelist (q : Request) (depth : Nat) (v : Vertex) :
    ((if q.whitelist.isEmpty then []
        else [Evaluator.whitelist ⟨.ofList q.whitelist, q.filterStart⟩]).map
          (Evaluator.decide depth v)).foldr Decision.and .includeAndContinue
      = ⟨q.allows depth v.id, q.allows depth v.id⟩ := by
  unfold allows
  cases q.whitelist.isEmpty with
  | true => simp [Decision.includeAndContinue]
  | false =>
    simp only [Bool.false_eq_true, if_false, List.map_cons, List.map_nil, List.foldr_cons,
      List.foldr_nil, Decision.and_includeAndContinue, Evaluator.decide, VertexList.allow,
      exempts_filterStart, SortedSet.mem_ofList, Bool.or_false]
    split
    · next h => rw [h]; rfl
    · next h => rw [Bool.not_eq_true] at h; rw [h]; rfl

theorem decide_blacklist (q : Request) (depth : Nat) (v : Vertex) :
    ((if q.blacklist.isEmpty then []
        else [Evaluator.blacklist ⟨.ofList q.blacklist, q.filterStart⟩]).map
          (Evaluator.decide depth v)).foldr Decision.and .includeAndContinue
      = ⟨q.spares depth v.id, q.spares depth v.id⟩ := by
  unfold spares
  cases h : q.blacklist with
  | nil => simp [Decision.includeAndContinue]
  | cons b rest =>
    simp only [List.isEmpty_cons, Bool.false_eq_true, if_false, List.map_cons, List.map_nil,
      List.foldr_cons, List.foldr_nil, Decision.and_includeAndContinue, Evaluator.decide,
      VertexList.deny, exempts_filterStart, SortedSet.mem_ofList]
    cases decide (q.IsExempt depth) with
    | true => rfl
    | false => by_cases hv : v.id ∈ b :: rest <;> simp [hv, Decision.excludeAndPrune,
        Decision.includeAndContinue]

theorem any_includeEnds (l : List VertexId) (v : VertexId) :
    (if l.isEmpty then none else some (EndPolicy.includeEnds (.ofList l))).any
        (·.decide v |>.includes) = decide (v ∈ l) := by
  cases l <;> simp [EndPolicy.decide]

theorem any_pruneAfter (l : List VertexId) (v : VertexId) :
    (if l.isEmpty then none else some (EndPolicy.pruneAfter (.ofList l))).any
        (·.decide v |>.includes) = decide (v ∈ l) := by
  cases l <;> simp [EndPolicy.decide]

theorem all_pruneAfter (l : List VertexId) (v : VertexId) :
    (if l.isEmpty then none else some (EndPolicy.pruneAfter (.ofList l))).all
        (·.decide v |>.continues) = decide (v ∉ l) := by
  cases l <;> simp [EndPolicy.decide]

theorem decide_endList (q : Request) (depth : Nat) (v : Vertex) :
    (((EndList.ofLists? q.ends q.terminators q.filterStart q.minLevel).toList.map
        Evaluator.endAndTerminator).map (Evaluator.decide depth v)).foldr
          Decision.and .includeAndContinue
      = ⟨q.endsAt depth v.id, q.goesThrough depth v.id⟩ := by
  unfold endsAt goesThrough EndList.ofLists?
  split
  · next h =>
    rw [Bool.and_eq_true, List.isEmpty_iff, List.isEmpty_iff] at h
    simp [h.1, h.2, Decision.includeAndContinue]
  · next h =>
    rw [Bool.not_eq_true] at h
    simp only [Option.toList_some, List.map_cons, List.map_nil, List.foldr_cons, List.foldr_nil,
      Decision.and_includeAndContinue, Evaluator.decide, EndList.decide, exempts_filterStart,
      any_includeEnds, any_pruneAfter, all_pruneAfter, h, Bool.false_or]
    -- At an exempt start and below the least length nothing is included.
    by_cases hexempt : q.IsExempt depth
    · simp [hexempt, Decision.excludeAndContinue]
    · by_cases hmin : depth < q.minLevel.toNat
      · simp [hexempt, hmin, Nat.not_le.mpr hmin, Decision.excludeAndContinue]
      · simp [hexempt, hmin, Nat.not_lt.mp hmin]

/-- **A plan decides as its tag sequence and as the lists of the request say**, both together. -/
theorem decide_plan (q : Request) (depth : Nat) (v : Vertex) :
    q.plan.evaluator.decide depth v
      = (q.tagSequence.decide depth v).and (q.decideLists depth v.id) := by
  rw [plan, Evaluator.decide_allOf, Evaluator.decide_all, filters, List.cons_append,
    List.cons_append, List.map_cons, List.foldr_cons, List.map_append, List.map_append,
    Decision.foldr_and_append, Decision.foldr_and_append, decide_whitelist, decide_blacklist,
    decide_endList]
  rfl

/-- The tag sequence of a plan is that of the request. -/
theorem tagSequence?_plan (q : Request) : q.plan.evaluator.tagSequence? = some q.tagSequence := by
  have hfirst : ∀ rest,
      (Evaluator.allOf (.tagSequence q.tagSequence :: rest)).tagSequence? = q.tagSequence := by
    intro rest
    cases rest <;> rfl
  exact hfirst _

/-- The request without its lists of vertices. -/
def withoutLists (q : Request) : Request :=
  { q with whitelist := [], blacklist := [], ends := [], terminators := [] }

theorem decideLists_withoutLists (q : Request) (depth : Nat) (v : VertexId) :
    q.withoutLists.decideLists depth v = .includeAndContinue := by
  simp [decideLists, withoutLists, allows, spares, endsAt, goesThrough,
    Decision.includeAndContinue]

theorem conjoins_lists (q : Request) :
    q.plan.Conjoins q.withoutLists.plan fun depth v => q.decideLists depth v.id where
  decide depth v := by
    rw [decide_plan, decide_plan, decideLists_withoutLists, Decision.and_includeAndContinue]
    rfl
  itinerary := rfl
  bounds := rfl

/-- A path passes the lists of a request: the vertices on it are inside the whitelist, if there is
one, and outside the blacklist; if there are ends or terminators, it ends on one of them, and has
not come to a terminator before.  A start that is not filtered is exempt, and is no end. -/
def Survives (q : Request) (p : Path) : Prop :=
  (q.whitelist ≠ [] → ∀ x ∈ p.vertices.zipIdx, ¬ q.IsExempt x.2 → x.1.id ∈ q.whitelist) ∧
  (∀ x ∈ p.vertices.zipIdx, ¬ q.IsExempt x.2 → x.1.id ∉ q.blacklist) ∧
  (q.ends ≠ [] ∨ q.terminators ≠ [] →
    ¬ q.IsExempt p.length ∧ (p.last.id ∈ q.ends ∨ p.last.id ∈ q.terminators) ∧
    ∀ r ∈ p.properPrefixes, q.minLevel.toNat ≤ r.length → ¬ q.IsExempt r.length →
      r.last.id ∉ q.terminators)

instance (q : Request) (p : Path) : Decidable (q.Survives p) :=
  inferInstanceAs (Decidable (_ ∧ _ ∧ _))

end Request

/-- The vertices of a path are where its beginnings end. -/
theorem Path.zipIdx_vertices (p : Path) :
    p.vertices.zipIdx = (p.properPrefixes ++ [p]).map fun r => (r.last, r.length) := by
  induction p with
  | start v => rfl
  | hop p e v ih =>
    rw [Path.vertices_hop, List.zipIdx_append, ih, Path.length_vertices, Nat.zero_add]
    simp [Path.properPrefixes, Path.last, Path.length]

namespace Request

variable {q : Request} {depth : Nat} {v : VertexId}

theorem allows_iff :
    q.allows depth v = true ↔ (q.whitelist ≠ [] → ¬ q.IsExempt depth → v ∈ q.whitelist) := by
  simp only [allows, Bool.or_eq_true, List.isEmpty_iff, decide_eq_true_eq]
  tauto

theorem spares_iff :
    q.spares depth v = true ↔ (¬ q.IsExempt depth → v ∉ q.blacklist) := by
  simp only [spares, Bool.or_eq_true, decide_eq_true_eq]
  tauto

theorem goesThrough_iff :
    q.goesThrough depth v = true ↔
      (q.minLevel.toNat ≤ depth → ¬ q.IsExempt depth → v ∉ q.terminators) := by
  simp only [goesThrough, Bool.or_eq_true, decide_eq_true_eq, ← Nat.not_le]
  tauto

theorem endsAt_iff (hmin : q.minLevel.toNat ≤ depth) :
    q.endsAt depth v = true ↔
      (q.ends ≠ [] ∨ q.terminators ≠ [] →
        ¬ q.IsExempt depth ∧ (v ∈ q.ends ∨ v ∈ q.terminators)) := by
  simp only [endsAt, Bool.or_eq_true, Bool.and_eq_true, List.isEmpty_iff, decide_eq_true_eq, hmin]
  tauto

/-- **What the lists say along the way is what they say of the path as a whole.** -/
theorem passes_lists_iff {p : Path} (hmin : q.minLevel.toNat ≤ p.length) :
    p.passes (fun depth v => q.decideLists depth v.id) = true ↔ q.Survives p := by
  have hpasses : p.passes (fun depth v => q.decideLists depth v.id) = true ↔
      (∀ r ∈ p.properPrefixes, q.allows r.length r.last.id = true ∧
        q.spares r.length r.last.id = true ∧ q.goesThrough r.length r.last.id = true) ∧
      q.allows p.length p.last.id = true ∧ q.spares p.length p.last.id = true ∧
        q.endsAt p.length p.last.id = true := by
    simp only [Path.passes, Path.reachedBy, decideLists, Bool.and_eq_true, List.all_eq_true,
      and_assoc]
  rw [hpasses, Survives, Path.zipIdx_vertices, allows_iff, spares_iff, endsAt_iff hmin]
  simp only [List.forall_mem_map, List.forall_mem_append, List.forall_mem_singleton, allows_iff,
    spares_iff, goesThrough_iff]
  constructor
  · rintro ⟨hbefore, hallows, hspares, hends⟩
    refine ⟨fun hw => ⟨fun r hr => (hbefore r hr).1 hw, hallows hw⟩,
      ⟨fun r hr => (hbefore r hr).2.1, hspares⟩, fun hne => ?_⟩
    exact ⟨(hends hne).1, (hends hne).2, fun r hr => (hbefore r hr).2.2⟩
  · rintro ⟨hallows, hspares, hends⟩
    refine ⟨fun r hr => ⟨fun hw => (hallows hw).1 r hr, hspares.1 r hr, ?_⟩,
      fun hw => (hallows hw).2, hspares.2, fun hne => ⟨(hends hne).1, (hends hne).2.1⟩⟩
    -- A vertex that is a terminator is there only if there are terminators.
    intro hr' hexempt hmem
    exact (hends (Or.inr (List.ne_nil_of_mem hmem))).2.2 r hr hr' hexempt hmem

end Request

/-- **The lists of vertices of a request filter the results of its walk without them**: the walk
with lists finds those results that survive, in the same order and as often. -/
theorem search_lists {changes : List Graph.Change} {start : VertexId} {v : Vertex}
    (hv : (Graph.build changes).vertex? start = some v) {q : Request} {plan : Plan}
    (hq : q.compile = .ok plan) (hu : q.uniqueness ≠ .nodeGlobal) (hlimit : q.limit = none) :
    ∃ plan₀ results, q.withoutLists.compile = .ok plan₀ ∧
      search (Graph.build changes) plan₀ start = .ok results ∧
      search (Graph.build changes) plan start = .ok (results.filter fun p => q.Survives p) := by
  obtain ⟨hvalid, rfl⟩ := Request.compile_eq_ok_iff.mp hq
  have hq₀ : q.withoutLists.compile = .ok q.withoutLists.plan :=
    Request.compile_eq_ok_iff.mpr ⟨hvalid, rfl⟩
  have hg := Graph.closed_build changes
  obtain ⟨results, hresults, hfilter⟩ :=
    search_conjoin hg hv q.conjoins_lists (Search.visitsOnce_eq_false hq₀ hu) hlimit
  refine ⟨_, results, hq₀, hresults, hfilter.trans (congrArg _ (List.filter_congr ?_))⟩
  intro p hp
  have hreports := Search.reports_of_mem_search hg hv hresults hp
  have hmin : q.minLevel.toNat ≤ p.length := by
    rw [Plan.reports, Bool.and_eq_true, decide_eq_true_eq] at hreports
    exact hreports.2
  rw [Bool.eq_iff_iff, Request.passes_lists_iff hmin, decide_eq_true_eq]

/-- A terminator is walked through below the least length, and ends the walk from there on. -/
theorem search_lists_terminator :
    search (Graph.build [.vertex [], .vertex [], .edge ⟨0⟩ ⟨1⟩ "A", .edge ⟨1⟩ ⟨0⟩ "B",
        .edge ⟨0⟩ ⟨1⟩ "C"])
      (Request.plan { edgeFilter := some "A>,B>,C>", terminators := [⟨1⟩], minLevel := 2 }) ⟨0⟩
      = .ok [.hop (.hop (.hop (.start ⟨⟨0⟩, .empty⟩)
          ⟨⟨0⟩, "A", ⟨0⟩, ⟨1⟩⟩ ⟨⟨1⟩, .empty⟩) ⟨⟨1⟩, "B", ⟨1⟩, ⟨0⟩⟩ ⟨⟨0⟩, .empty⟩)
          ⟨⟨2⟩, "C", ⟨0⟩, ⟨1⟩⟩ ⟨⟨1⟩, .empty⟩] := by
  obtain ⟨plan₀, results, hplan₀, hresults, hfilter⟩ := @search_lists
    [.vertex [], .vertex [], .edge ⟨0⟩ ⟨1⟩ "A", .edge ⟨1⟩ ⟨0⟩ "B", .edge ⟨0⟩ ⟨1⟩ "C"]
    ⟨0⟩ ⟨⟨0⟩, .empty⟩ (by decide)
    { edgeFilter := some "A>,B>,C>", terminators := [⟨1⟩], minLevel := 2 } _ rfl (by decide) rfl
  cases hplan₀
  rw [search_eq (Graph.closed_build _) _ (v := ⟨⟨0⟩, .empty⟩) (by decide)] at hresults
  cases hresults
  rw [hfilter]
  exact congrArg _ (by decide)

end WalkFilter
