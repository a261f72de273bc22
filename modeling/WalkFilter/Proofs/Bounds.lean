/-
What the bounds of a request do to the results of its walk.

The bounds leave the filters alone: they say which paths are lengthened and
where the walk ends, and so they choose among the paths of the generations.
A walk that visits each vertex once keeps some of the paths of the walk that
does not, one with a greatest length has the same generations up to it and
none after it, and a limit ends the results early:

* **`paths_generation_sublist`** — visiting each vertex once leaves paths out
  of a generation and moves none;
* **`generation_of_shortens`**, **`paths_generation_of_lt`** — the generations
  up to the greatest length and after it;
* **`search_nodeGlobal`** — the results of the walk that visits each vertex once
  are among those of the walk that may come back;
* **`search_maxLevel`** — raising the greatest length appends results and
  changes none;
* **`search_limit`** — a limit gives the beginning of the results, and never
  less than one.
-/
import WalkFilter.Proofs.Route

namespace WalkFilter

/-- A filter that holds of the beginning of a list only keeps that beginning. -/
theorem filter_eq_takeWhile {α : Type} {f : α → Bool} {l : List α}
    (h : l.Pairwise fun a b => f b = true → f a = true) : l.filter f = l.takeWhile f := by
  induction l with
  | nil => rfl
  | cons a rest ih =>
    obtain ⟨hfirst, hrest⟩ := List.pairwise_cons.mp h
    cases ha : f a with
    | true => rw [List.filter_cons_of_pos ha, List.takeWhile_cons_of_pos ha, ih hrest]
    | false =>
      have hnone : ∀ b ∈ a :: rest, ¬ f b = true := by
        intro b hb hfb
        rcases List.mem_cons.mp hb with rfl | hb
        · exact Bool.false_ne_true (ha.symm.trans hfb)
        · exact Bool.false_ne_true (ha.symm.trans (hfirst b hb hfb))
      rw [List.takeWhile_cons_of_neg (hnone a (List.mem_cons_self ..))]
      exact List.filter_eq_nil_iff.mpr hnone

theorem take_max_one_eq_iff {α : Type} {l : List α} {n : Nat} :
    l.take (max 1 n) = l.take n ↔ n ≠ 0 ∨ l = [] := by
  cases n with
  | zero => simp
  | succ n => simp

namespace Plan

variable {plan plan' : Plan} {g : Graph}

theorem longer_congr {p : Path} (hlengthens : plan.lengthens p = plan'.lengthens p)
    (hitinerary : plan.itinerary = plan'.itinerary) : plan.longer g p = plan'.longer g p := by
  rw [longer, longer, hlengthens, hitinerary]

theorem cut_congr (h : plan.bounds.limit = plan'.bounds.limit) : plan.cut = plan'.cut := by
  funext found results
  rw [cut, cut, h]

theorem cut_sublist (plan : Plan) (found : Nat) (results : List Path) :
    (plan.cut found results).Sublist results := by
  rw [cut]
  split
  · exact List.Sublist.refl _
  · exact List.take_sublist _ _

/-- The beginning of the results that are wanted are the wanted ones of the beginning. -/
theorem takeWhile_cut (plan : Plan) (found : Nat) (results : List Path) (f : Path → Bool) :
    (plan.cut found results).takeWhile f = plan.cut found (results.takeWhile f) := by
  rw [cut, cut]
  split
  · rfl
  · exact List.take_takeWhile.symm

end Plan

namespace Search

variable {plan plan' : Plan} {g : Graph} {v : Vertex}

/-- A generation depends on how the paths of the generations before it are lengthened. -/
theorem generation_congr (honce : plan.visitsOnce = plan'.visitsOnce) {n : Nat}
    (hlonger : ∀ k < n, ∀ p ∈ (generation g plan' v k).paths, plan.longer g p = plan'.longer g p) :
    generation g plan v n = generation g plan' v n := by
  induction n with
  | zero => rfl
  | succ n ih =>
    rw [generation_succ, generation_succ, ih fun k hk => hlonger k (Nat.lt_succ_of_lt hk), grow,
      grow, List.flatMap_congr (hlonger n (Nat.lt_succ_self n)), honce]

/-! ### Vertices visited once -/

/-- Visiting each vertex once leaves paths out of a generation and moves none. -/
theorem paths_generation_sublist (honce : plan'.visitsOnce = false)
    (hlonger : ∀ p, plan.longer g p = plan'.longer g p) (n : Nat) :
    (generation g plan v n).paths.Sublist (generation g plan' v n).paths := by
  induction n with
  | zero => exact List.Sublist.refl _
  | succ n ih =>
    rw [generation_succ, grow, paths_generation_succ honce, funext hlonger]
    exact (paths_keep_sublist _ _ _).trans (ih.flatMap _)

end Search

/-- **A walk that visits each vertex once refines the walk that may come back**: its results are
among those of the other walk, in their order, no two of them end on one vertex, and none comes to
a vertex twice. -/
theorem search_nodeGlobal {changes : List Graph.Change} {start : VertexId} {v : Vertex}
    (hv : (Graph.build changes).vertex? start = some v) {q : Request} {plan : Plan}
    (hq : q.compile = .ok plan) (hu : q.uniqueness = .nodeGlobal) (hlimit : q.limit = none) :
    ∃ plan' results results',
      Request.compile { q with uniqueness := .relationshipPath } = .ok plan' ∧
      search (Graph.build changes) plan start = .ok results ∧
      search (Graph.build changes) plan' start = .ok results' ∧
      (results.map (·.last.id)).Nodup ∧ (∀ p ∈ results, (p.vertices.map (·.id)).Nodup) ∧
      results.Sublist results' := by
  obtain ⟨hvalid, rfl⟩ := Request.compile_eq_ok_iff.mp hq
  have hg := Graph.closed_build changes
  have honce : q.plan.visitsOnce = true := decide_eq_true hu
  let q' : Request := { q with uniqueness := .relationshipPath }
  have honce' : q'.plan.visitsOnce = false := rfl
  refine ⟨q'.plan, _, _, Request.compile_eq_ok_iff.mpr ⟨hvalid, rfl⟩,
    search_eq_of_limit_none hg hv hlimit, search_eq_of_limit_none hg hv hlimit,
    Search.nodup_ends_results honce _, fun p hp => ?_, ?_⟩
  · obtain ⟨-, n, hp⟩ := Search.mem_results_iff.mp hp
    exact (Search.vertices_of_mem_generation honce hp).1
  · have hlonger : ∀ p, q.plan.longer (Graph.build changes) p = q'.plan.longer _ p :=
      fun p => Plan.longer_congr rfl rfl
    exact List.Sublist.flatMap_right _ fun n _ =>
      (Search.paths_generation_sublist honce' hlonger n).filter _

/-- Of two ways to the last vertex the walk that visits each vertex once takes the first. -/
theorem search_nodeGlobal_diamond :
    ∃ results results',
      search (Graph.build [.vertex [], .vertex [], .vertex [], .vertex [], .edge ⟨0⟩ ⟨1⟩ "A",
          .edge ⟨0⟩ ⟨2⟩ "A", .edge ⟨1⟩ ⟨3⟩ "A", .edge ⟨2⟩ ⟨3⟩ "A"])
        (Request.plan { edgeFilter := some "A>", uniqueness := .nodeGlobal }) ⟨0⟩ = .ok results ∧
      search (Graph.build [.vertex [], .vertex [], .vertex [], .vertex [], .edge ⟨0⟩ ⟨1⟩ "A",
          .edge ⟨0⟩ ⟨2⟩ "A", .edge ⟨1⟩ ⟨3⟩ "A", .edge ⟨2⟩ ⟨3⟩ "A"])
        (Request.plan { edgeFilter := some "A>" }) ⟨0⟩ = .ok results' ∧
      results.Sublist results' ∧ results.map (·.last.id) = [⟨0⟩, ⟨1⟩, ⟨2⟩, ⟨3⟩] ∧
      results'.map (·.last.id) = [⟨0⟩, ⟨1⟩, ⟨2⟩, ⟨3⟩, ⟨3⟩] := by
  obtain ⟨plan', results, results', hplan', hresults, hresults', -, -, hsub⟩ := @search_nodeGlobal
    [.vertex [], .vertex [], .vertex [], .vertex [], .edge ⟨0⟩ ⟨1⟩ "A", .edge ⟨0⟩ ⟨2⟩ "A",
      .edge ⟨1⟩ ⟨3⟩ "A", .edge ⟨2⟩ ⟨3⟩ "A"] ⟨0⟩ ⟨⟨0⟩, .empty⟩ (by decide)
    { edgeFilter := some "A>", uniqueness := .nodeGlobal } _ rfl rfl rfl
  cases hplan'
  refine ⟨results, results', hresults, hresults', hsub, ?_, ?_⟩
  · rw [search_eq (Graph.closed_build _) _ (v := ⟨⟨0⟩, .empty⟩) (by decide)] at hresults
    cases hresults
    decide
  · rw [search_eq (Graph.closed_build _) _ (v := ⟨⟨0⟩, .empty⟩) (by decide)] at hresults'
    cases hresults'
    decide

/-! ### The greatest length -/

/-- A plan walks as another one does, and looks at paths of length `m` at most. -/
structure Plan.Shortens (plan plan' : Plan) (m : Nat) : Prop where
  lengthens : ∀ p, plan.lengthens p = (plan'.lengthens p && p.length < m)
  reports : plan.reports = plan'.reports
  itinerary : plan.itinerary = plan'.itinerary
  visitsOnce : plan.visitsOnce = plan'.visitsOnce
  limit : plan.bounds.limit = plan'.bounds.limit

theorem Request.shortens (q : Request) {m₁ : UInt64} {m₂ : Option UInt64}
    (h : ∀ m, m₂ = some m → m₁ ≤ m) :
    (plan { q with maxLevel := some m₁ }).Shortens (plan { q with maxLevel := m₂ }) m₁.toNat where
  lengthens p := by
    have hlt : ∀ m, m₂ = some m → p.length < m₁.toNat → p.length < m.toNat := fun m hm hp =>
      Nat.lt_of_lt_of_le hp (UInt64.le_iff_toNat_le.mp (h m hm))
    rw [Bool.eq_iff_iff, Bool.and_eq_true, Plan.lengthens_iff, Plan.lengthens_iff,
      decide_eq_true_eq]
    constructor
    · rintro ⟨hp, hgoes⟩
      exact ⟨⟨fun m hm => hlt m hm (hp m₁ rfl), hgoes⟩, hp m₁ rfl⟩
    · rintro ⟨⟨-, hgoes⟩, hp⟩
      exact ⟨fun m hm => Option.some.inj hm ▸ hp, hgoes⟩
  reports := rfl
  itinerary := rfl
  visitsOnce := rfl
  limit := rfl

namespace Search

variable {plan plan' : Plan} {m : Nat} {g : Graph} {v : Vertex}

/-- Up to the greatest length the generations do not depend on it. -/
theorem generation_of_shortens (h : plan.Shortens plan' m) {n : Nat} (hn : n ≤ m) :
    generation g plan v n = generation g plan' v n := by
  refine generation_congr h.visitsOnce fun k hk p hp => Plan.longer_congr ?_ h.itinerary
  have hlength : p.length < m := by
    rw [length_of_mem_generation hp]
    exact Nat.lt_of_lt_of_le hk hn
  rw [h.lengthens, decide_eq_true hlength, Bool.and_true]

/-- After the greatest length there are no generations. -/
theorem paths_generation_of_lt (h : plan.Shortens plan' m) {n : Nat} (hn : m < n) :
    (generation g plan v n).paths = [] := by
  obtain ⟨k, rfl⟩ : ∃ k, n = k + 1 := ⟨n - 1, by omega⟩
  refine List.eq_nil_iff_forall_not_mem.mpr fun p hp => ?_
  obtain ⟨q, hq, hpq⟩ := exists_longer_of_mem_generation hp
  obtain ⟨e, w, -, hlengthens, -⟩ := mem_longer_cases hpq
  rw [h.lengthens, length_of_mem_generation hq, Bool.and_eq_true, decide_eq_true_eq] at hlengthens
  omega

/-- The results of the shorter walk are those results of the longer one that are short enough. -/
theorem results_of_shortens (h : plan.Shortens plan' m) (k : Nat) :
    ((List.range k).flatMap fun n => (generation g plan v n).paths.filter plan.reports)
      = ((List.range k).flatMap fun n =>
          (generation g plan' v n).paths.filter plan'.reports).filter (·.length ≤ m) := by
  rw [List.filter_flatMap]
  refine List.flatMap_congr fun n _ => ?_
  have hlength : ∀ p ∈ (generation g plan' v n).paths.filter plan'.reports, p.length = n :=
    fun p hp => length_of_mem_generation (List.mem_filter.mp hp).1
  by_cases hn : n ≤ m
  · rw [generation_of_shortens h hn, h.reports]
    exact (List.filter_eq_self.mpr fun p hp => decide_eq_true (by rw [hlength p hp]; exact hn)).symm
  · rw [paths_generation_of_lt h (Nat.lt_of_not_le hn), List.filter_nil]
    refine (List.filter_eq_nil_iff.mpr fun p hp => ?_).symm
    rw [hlength p hp, decide_eq_true_eq]
    exact hn

/-- Of results in order of length those that are short enough are the first. -/
theorem filter_eq_takeWhile_of_sorted {results : List Path}
    (h : results.Pairwise fun p p' => p.length ≤ p'.length) (m : Nat) :
    (results.filter fun p => p.length ≤ m) = results.takeWhile fun p => p.length ≤ m :=
  filter_eq_takeWhile <| h.imp fun hle hp' =>
    decide_eq_true (Nat.le_trans hle (of_decide_eq_true hp'))

end Search

/-- The results of the shorter walk come first among those of the longer one. -/
theorem search_of_shortens {plan plan' : Plan} {m : Nat} (h : plan.Shortens plan' m) {g : Graph}
    (hg : g.Closed) {start : VertexId} {v : Vertex} (hv : g.vertex? start = some v) :
    ∃ results, search g plan' start = .ok results ∧
      search g plan start = .ok (results.filter fun p => p.length ≤ m) ∧
      (results.filter fun p => p.length ≤ m) <+: results := by
  have hsorted := @Search.pairwise_length_results g plan' v (g.edges.size + 1)
  refine ⟨_, search_eq hg plan' hv, ?_⟩
  rw [Search.filter_eq_takeWhile_of_sorted (hsorted.sublist (Plan.cut_sublist _ _ _))]
  refine ⟨?_, List.takeWhile_prefix _⟩
  -- The limit is the same, and it takes from the beginning too.
  rw [search_eq hg plan hv, Search.results_of_shortens h,
    Search.filter_eq_takeWhile_of_sorted hsorted, Plan.cut_congr h.limit, Plan.takeWhile_cut]

/-- **Raising the greatest length appends results and changes none**: the results up to the lesser
length are the results up to the greater one that are short enough, and those come first.  This
holds with a limit, and where every vertex is visited once. -/
theorem search_maxLevel {changes : List Graph.Change} {start : VertexId} {v : Vertex}
    (hv : (Graph.build changes).vertex? start = some v) (q : Request) {m₁ : UInt64}
    {m₂ : Option UInt64} (hmin : q.minLevel ≤ m₁) (hle : ∀ m, m₂ = some m → m₁ ≤ m) :
    ∃ plan₁ plan₂ results, Request.compile { q with maxLevel := some m₁ } = .ok plan₁ ∧
      Request.compile { q with maxLevel := m₂ } = .ok plan₂ ∧
      search (Graph.build changes) plan₂ start = .ok results ∧
      search (Graph.build changes) plan₁ start
        = .ok (results.filter fun p => p.length ≤ m₁.toNat) ∧
      (results.filter fun p => p.length ≤ m₁.toNat) <+: results := by
  let q₁ : Request := { q with maxLevel := some m₁ }
  let q₂ : Request := { q with maxLevel := m₂ }
  have hvalid₁ : q₁.validate = .ok () :=
    Request.validate_eq_ok_iff.mpr fun m hm => Option.some.inj hm ▸ hmin
  have hvalid₂ : q₂.validate = .ok () :=
    Request.validate_eq_ok_iff.mpr fun m hm => UInt64.le_trans hmin (hle m hm)
  obtain ⟨results, hresults⟩ :=
    search_of_shortens (q.shortens hle) (Graph.closed_build changes) hv
  exact ⟨q₁.plan, q₂.plan, results, Request.compile_eq_ok_iff.mpr ⟨hvalid₁, rfl⟩,
    Request.compile_eq_ok_iff.mpr ⟨hvalid₂, rfl⟩, hresults⟩

/-- Along a chain the limit ends the longer walk, and the greatest length the shorter one. -/
theorem search_maxLevel_chain :
    ∃ results,
      search (Graph.build [.vertex [], .vertex [], .vertex [], .vertex [], .edge ⟨0⟩ ⟨1⟩ "A",
          .edge ⟨1⟩ ⟨2⟩ "A", .edge ⟨2⟩ ⟨3⟩ "A"])
        (Request.plan { limit := some 3, uniqueness := .nodeGlobal }) ⟨0⟩ = .ok results ∧
      search (Graph.build [.vertex [], .vertex [], .vertex [], .vertex [], .edge ⟨0⟩ ⟨1⟩ "A",
          .edge ⟨1⟩ ⟨2⟩ "A", .edge ⟨2⟩ ⟨3⟩ "A"])
        (Request.plan { maxLevel := some 1, limit := some 3, uniqueness := .nodeGlobal }) ⟨0⟩
        = .ok (results.filter fun p => p.length ≤ 1) ∧
      results.map (·.length) = [0, 1, 2] := by
  obtain ⟨plan₁, plan₂, results, hplan₁, hplan₂, hresults, hshort, -⟩ := @search_maxLevel
    [.vertex [], .vertex [], .vertex [], .vertex [], .edge ⟨0⟩ ⟨1⟩ "A", .edge ⟨1⟩ ⟨2⟩ "A",
      .edge ⟨2⟩ ⟨3⟩ "A"] ⟨0⟩ ⟨⟨0⟩, .empty⟩ (by decide)
    { limit := some 3, uniqueness := .nodeGlobal } 1 none (by decide) (by simp)
  cases hplan₁
  cases hplan₂
  refine ⟨results, hresults, hshort, ?_⟩
  rw [search_eq (Graph.closed_build _) _ (v := ⟨⟨0⟩, .empty⟩) (by decide)] at hresults
  cases hresults
  decide

/-! ### The limit -/

/-- **A limit gives the first results**, as many as it says but at least one: a limit of nothing
is looked at after the first result.  So the results are capped by the limit unless it is zero
and there are results. -/
theorem search_limit {changes : List Graph.Change} {start : VertexId} {v : Vertex}
    (hv : (Graph.build changes).vertex? start = some v) {q : Request} {plan : Plan}
    (hq : q.compile = .ok plan) (hlimit : q.limit = none) (k : UInt64) :
    ∃ plan' results, Request.compile { q with limit := some k } = .ok plan' ∧
      search (Graph.build changes) plan start = .ok results ∧
      search (Graph.build changes) plan' start = .ok (results.take (max 1 k.toNat)) ∧
      (search (Graph.build changes) plan' start = .ok (results.take k.toNat) ↔
        k ≠ 0 ∨ results = []) := by
  obtain ⟨hvalid, rfl⟩ := Request.compile_eq_ok_iff.mp hq
  have hg := Graph.closed_build changes
  let q' : Request := { q with limit := some k }
  have hgeneration : ∀ n, Search.generation (Graph.build changes) q'.plan v n
      = Search.generation (Graph.build changes) q.plan v n := fun n =>
    Search.generation_congr rfl fun _ _ _ _ => Plan.longer_congr rfl rfl
  have hfirst := search_eq hg q'.plan hv
  simp only [hgeneration] at hfirst
  refine ⟨q'.plan, _, Request.compile_eq_ok_iff.mpr ⟨hvalid, rfl⟩,
    search_eq_of_limit_none hg hv hlimit, hfirst, ?_⟩
  have hzero : k.toNat ≠ 0 ↔ k ≠ 0 := not_congr (UInt64.toNat_inj (b := 0))
  rw [hfirst, ← hzero, ← take_max_one_eq_iff]
  exact ⟨Except.ok.inj, congrArg _⟩

/-- A limit of two takes the first two of three results. -/
theorem search_limit_two :
    ∃ results,
      search (Graph.build [.vertex [], .vertex [], .vertex [], .edge ⟨0⟩ ⟨1⟩ "A",
          .edge ⟨0⟩ ⟨2⟩ "A"]) (Request.plan {}) ⟨0⟩ = .ok results ∧
      search (Graph.build [.vertex [], .vertex [], .vertex [], .edge ⟨0⟩ ⟨1⟩ "A",
          .edge ⟨0⟩ ⟨2⟩ "A"]) (Request.plan { limit := some 2 }) ⟨0⟩ = .ok (results.take 2) ∧
      results.length = 3 := by
  obtain ⟨plan', results, hplan', hresults, -, hlimited⟩ := @search_limit
    [.vertex [], .vertex [], .vertex [], .edge ⟨0⟩ ⟨1⟩ "A", .edge ⟨0⟩ ⟨2⟩ "A"] ⟨0⟩ ⟨⟨0⟩, .empty⟩
    (by decide) {} _ rfl rfl 2
  cases hplan'
  refine ⟨results, hresults, hlimited.mpr (Or.inl (by decide)), ?_⟩
  rw [search_eq (Graph.closed_build _) _ (v := ⟨⟨0⟩, .empty⟩) (by decide)] at hresults
  cases hresults
  decide

/-- A limit of nothing does not keep the first result out. -/
theorem search_limit_zero :
    ∃ results,
      search (Graph.build [.vertex []]) (Request.plan {}) ⟨0⟩ = .ok results ∧
      search (Graph.build [.vertex []]) (Request.plan { limit := some 0 }) ⟨0⟩
        ≠ .ok (results.take 0) := by
  have hg := Graph.closed_build [.vertex []]
  have hv : (Graph.build [.vertex []]).vertex? ⟨0⟩ = some ⟨⟨0⟩, .empty⟩ := by decide
  refine ⟨_, search_eq hg _ hv, ?_⟩
  rw [search_eq hg _ hv]
  exact fun h => absurd (Except.ok.inj h) (by decide)

end WalkFilter
