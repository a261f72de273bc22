/-
A walk with one more filter.

A plan that decides as another one and as a further filter, both together,
cuts off branches of the walk of the other plan.  Where vertices may be
visited again the branches do not see each other, so what is left are the
results that pass the further filter:

* **`paths_generation_of_conjoins`** — generation by generation, the paths
  whose proper beginnings the further filter lets go on;
* **`search_conjoin`** — the results of the walk are those of the other walk
  that pass, in the same order and as often.
-/
import WalkFilter.Proofs.Trail

namespace WalkFilter

/-- The plan decides as `plan₀` and as the further filter, both together. -/
structure Plan.Conjoins (plan plan₀ : Plan) (extra : Nat → Vertex → Decision) : Prop where
  decide : ∀ depth v,
    plan.evaluator.decide depth v = (plan₀.evaluator.decide depth v).and (extra depth v)
  itinerary : plan.itinerary = plan₀.itinerary
  bounds : plan.bounds = plan₀.bounds

namespace Path

/-- The further filter lets the walk go on from each proper beginning of the path. -/
def reachedBy (extra : Nat → Vertex → Decision) (p : Path) : Bool :=
  p.properPrefixes.all fun r => (extra r.length r.last).continues

/-- The further filter lets the walk come to the path, and includes it. -/
def passes (extra : Nat → Vertex → Decision) (p : Path) : Bool :=
  p.reachedBy extra && (extra p.length p.last).includes

theorem reachedBy_hop (extra : Nat → Vertex → Decision) (p : Path) (e : Edge) (v : Vertex) :
    (hop p e v).reachedBy extra = (p.reachedBy extra && (extra p.length p.last).continues) := by
  simp [reachedBy, properPrefixes]

end Path

namespace Search

variable {plan plan₀ : Plan} {extra : Nat → Vertex → Decision} {g : Graph} {v : Vertex}

theorem lengthens_of_conjoins (h : plan.Conjoins plan₀ extra) (p : Path) :
    plan.lengthens p = (plan₀.lengthens p && (extra p.length p.last).continues) := by
  rw [Plan.lengthens, Plan.lengthens, Evaluator.decidePath, Evaluator.decidePath, h.decide,
    h.bounds, Decision.continues_and, Bool.and_assoc, Bool.and_assoc,
    Bool.and_comm (extra _ _).continues]

theorem reports_of_conjoins (h : plan.Conjoins plan₀ extra) (p : Path) :
    plan.reports p = (plan₀.reports p && (extra p.length p.last).includes) := by
  rw [Plan.reports, Plan.reports, Evaluator.decidePath, Evaluator.decidePath, h.decide,
    h.bounds, Decision.includes_and, Bool.and_assoc, Bool.and_assoc,
    Bool.and_comm (extra _ _).includes]

theorem longer_of_conjoins (h : plan.Conjoins plan₀ extra) (p : Path) :
    plan.longer g p = if (extra p.length p.last).continues then plan₀.longer g p else [] := by
  rw [Plan.longer, Plan.longer, lengthens_of_conjoins h, h.itinerary]
  cases (extra p.length p.last).continues <;> cases plan₀.lengthens p <;> rfl

/-- All paths that lengthen a path are reached, or none of them. -/
theorem filter_reachedBy_longer (p : Path) :
    (plan₀.longer g p).filter (·.reachedBy extra)
      = if p.reachedBy extra && (extra p.length p.last).continues then plan₀.longer g p
        else [] := by
  have hq : ∀ q ∈ plan₀.longer g p,
      q.reachedBy extra = (p.reachedBy extra && (extra p.length p.last).continues) := by
    intro q hq
    obtain ⟨e, w, rfl, -⟩ := mem_longer_cases hq
    exact Path.reachedBy_hop extra p e w
  rw [List.filter_congr hq]
  split
  · next hreached => simp [hreached]
  · next hreached => simp [hreached]

/-- The generations of the two walks, one by one. -/
theorem paths_generation_of_conjoins (h : plan.Conjoins plan₀ extra)
    (honce : plan₀.visitsOnce = false) (n : Nat) :
    (generation g plan v n).paths
      = (generation g plan₀ v n).paths.filter (·.reachedBy extra) := by
  have honce' : plan.visitsOnce = false := by
    rw [Plan.visitsOnce, h.bounds]
    exact honce
  induction n with
  | zero => rfl
  | succ n ih =>
    rw [paths_generation_succ honce', paths_generation_succ honce, ih, List.filter_flatMap]
    induction (generation g plan₀ v n).paths with
    | nil => rfl
    | cons p rest ihp =>
      rw [List.flatMap_cons, filter_reachedBy_longer, ← ihp, List.filter_cons]
      cases hreached : p.reachedBy extra with
      | false => rfl
      | true => rw [if_pos rfl, List.flatMap_cons, longer_of_conjoins h, Bool.true_and]

end Search

/-- **A further filter on a walk keeps the results that pass it**, in their order and as often
as they were there. -/
theorem search_conjoin {plan plan₀ : Plan} {extra : Nat → Vertex → Decision} {g : Graph}
    (hg : g.Closed) {start : VertexId} {v : Vertex} (hv : g.vertex? start = some v)
    (h : plan.Conjoins plan₀ extra) (honce : plan₀.visitsOnce = false)
    (hlimit : plan₀.bounds.limit = none) :
    ∃ results, search g plan₀ start = .ok results ∧
      search g plan start = .ok (results.filter (·.passes extra)) := by
  have hlimit' : plan.bounds.limit = none := by rw [h.bounds, hlimit]
  refine ⟨_, search_eq_of_limit_none hg hv hlimit, ?_⟩
  rw [search_eq_of_limit_none hg hv hlimit', List.filter_flatMap]
  refine congrArg _ (congrArg (List.flatMap · _) (funext fun n => ?_))
  rw [Search.paths_generation_of_conjoins h honce, List.filter_filter, List.filter_filter]
  refine List.filter_congr fun p _ => ?_
  rw [Search.reports_of_conjoins h, Path.passes]
  cases p.reachedBy extra <;> cases plan₀.reports p <;> simp

end WalkFilter
