/-
Sequences and separate filters.

A sequence interleaves a tag filter and an edge filter.  The filters can be
read off it and written separately, and the request then has the same plan.
The one exception is a sequence of two pieces that begins on the first hop
with a blank piece: it frees the first hop and has no other, whereas a blank
edge filter frees every hop.

* **`ofFilters_split_join`** — tag rules do not tell pieces from a filter that
  joins them;
* **`parse_join_eq_iff`** — when edge positions do;
* **`opensFreely_iff`** — the exception, seen from the edge positions;
* **`compile_separated`** — when a sequence and its separate filters have the
  same plan, and how the plans differ when they have not.
-/
import WalkFilter.Proofs.Cut

namespace WalkFilter

/-- Tag rules do not tell pieces from a filter that joins them. -/
theorem TagSequence.ofFilters_split_join {pieces : List String}
    (hcomma : ∀ piece ∈ pieces, ',' ∉ piece.toList) (options : SequenceOptions) :
    ofFilters (Text.split ',' (Text.join ',' pieces)) options = ofFilters pieces options := by
  cases pieces with
  | nil => rfl
  | cons piece rest => rw [Text.split_join (List.cons_ne_nil _ _) hcomma]

/-! ### Edge positions -/

/-- A blank position follows every edge. -/
theorem Selector.parse_of_isBlank {position : String} (h : Text.isBlank position = true) :
    parse position = wildcard := by
  have hbar : '|' ∉ position.toList := fun hmem =>
    absurd (List.all_eq_true.mp h '|' hmem) (by decide)
  rw [parse, Text.split_of_not_mem hbar, List.filter_cons_of_neg (by simp [h]), List.filter_nil]
  rfl

namespace Itinerary

theorem stepsAt_unrestricted (depth : Nat) : unrestricted.stepsAt depth = [.wildcard] := by
  have hselector : unrestricted.selectorAt depth = some .wildcard := by
    simp [unrestricted, selectorAt, cycle, DepthCycle.at?, DepthCycle.indexAt, Nat.mod_one]
  rw [stepsAt, hselector]
  rfl

/-- A blank position by itself frees every hop, or the first one if it is about that. -/
theorem ofPositions_of_isBlank {position : String} (h : Text.isBlank position = true)
    (beginAtStart : Bool) :
    ofPositions [position] beginAtStart
      = if beginAtStart then unrestricted else ⟨some .wildcard, []⟩ := by
  cases beginAtStart <;> simp [ofPositions, Selector.parse_of_isBlank h, unrestricted]

/-- Edge positions are told from a filter that joins them just if the only one of them is blank
and is about the first hop. -/
theorem parse_join_eq_iff {positions : List String}
    (hcomma : ∀ position ∈ positions, ',' ∉ position.toList) (beginAtStart : Bool) :
    parse (some (Text.join ',' positions)) beginAtStart = ofPositions positions beginAtStart ↔
      ¬ (beginAtStart = false ∧ ∃ position, positions = [position] ∧ Text.isBlank position) := by
  have hsplit : positions ≠ [] →
      Text.split ',' (Text.join ',' positions) = positions := fun hne => Text.split_join hne hcomma
  rw [parse]
  match positions with
  | [] => exact iff_of_true rfl (by simp)
  | [position] =>
    rw [hsplit (List.cons_ne_nil _ _), Text.join_singleton]
    cases hblank : Text.isBlank position with
    | false => simp [hblank]
    | true =>
      rw [if_pos rfl, ofPositions_of_isBlank hblank]
      cases beginAtStart <;> simp [hblank, unrestricted]
  | first :: second :: rest =>
    -- A comma is left between the positions, so the filter is not blank.
    have hblank : ¬ Text.isBlank (Text.join ',' (first :: second :: rest)) = true := fun h =>
      absurd (List.all_eq_true.mp h ',' (Text.mem_join first second rest)) (by decide)
    rw [if_neg hblank, hsplit (List.cons_ne_nil _ _)]
    exact iff_of_true rfl (by simp)

end Itinerary

/-! ### Sequences -/

theorem splitSequence_trim (s : String) (beginAtStart : Bool) :
    splitSequence (Text.trim s) beginAtStart = splitSequence s beginAtStart := by
  rw [splitSequence, Text.map_trim_split_trim (by decide), splitSequence]

/-- No piece of a sequence holds a comma. -/
theorem not_mem_of_mem_splitSequence {s piece : String} {beginAtStart : Bool}
    (h : piece ∈ (splitSequence s beginAtStart).1 ∨ piece ∈ (splitSequence s beginAtStart).2) :
    ',' ∉ piece.toList := by
  have hpiece : ∃ p ∈ Text.split ',' s, Text.trim p = piece := by
    rw [splitSequence_eq] at h
    rcases h with h | h <;>
    · obtain ⟨p, hp, rfl⟩ := List.mem_map.mp h
      exact ⟨p, mem_of_mem_everyOther hp, rfl⟩
  obtain ⟨p, hp, rfl⟩ := hpiece
  rw [Text.trim, String.toList_ofList]
  exact fun hmem => Text.not_mem_of_mem_split hp (Chars.mem_of_mem_trim hmem)

namespace Request

/-- The request with the filters of a sequence written separately. -/
def separated (q : Request) (sequence : String) : Request :=
  { q with
    sequence := none
    tagFilter := some (Text.join ',' (splitSequence (Text.trim sequence) q.beginAtStart).1)
    edgeFilter := some (Text.join ',' (splitSequence (Text.trim sequence) q.beginAtStart).2) }

/-- The sequence begins on the first hop, which is free, and says nothing of other hops: its two
pieces are a blank edge position and a tag rule. -/
def OpensFreely (q : Request) (sequence : String) : Prop :=
  q.beginAtStart = false ∧
    ∃ first second, Text.split ',' (Text.trim sequence) = [first, second] ∧ Text.isBlank first

variable {q : Request} {s : String}

/-- The sequence has one edge position, which is blank. -/
theorem opensFreely_iff (hblank : Text.isBlank s = false) :
    q.OpensFreely s ↔ q.beginAtStart = false ∧
      ∃ position, (splitSequence s q.beginAtStart).2 = [position] ∧ Text.isBlank position := by
  refine and_congr_right fun hbegin => ?_
  rw [hbegin, ← splitSequence_trim, splitSequence]
  have hjoin := Text.join_split ',' (Text.trim s)
  rcases hpieces : Text.split ',' (Text.trim s) with _ | ⟨first, _ | ⟨second, _ | ⟨third, rest⟩⟩⟩
  · exact absurd hpieces (Text.split_ne_nil _ _)
  · -- A single piece is all of the sequence, and that is not blank.
    rw [hpieces, Text.join_singleton] at hjoin
    simp [alternate, Text.isBlank_trim, hjoin, hblank]
  · simp [alternate, Text.isBlank_trim]
  · simp [alternate]

theorem sequence?_of_not_isBlank (hs : q.sequence = some s) (hblank : Text.isBlank s = false) :
    q.sequence? = some s := by
  rw [sequence?, hs, Option.filter_some, hblank]
  rfl

theorem tagSequence_separated (hs : q.sequence = some s) (hblank : Text.isBlank s = false) :
    (q.separated s).tagSequence = q.tagSequence := by
  have hcomma : ∀ piece ∈ (splitSequence s q.beginAtStart).1, ',' ∉ piece.toList :=
    fun piece h => not_mem_of_mem_splitSequence (Or.inl h)
  rw [tagSequence, tagSequence, sequence?_of_not_isBlank hs hblank, separated, splitSequence_trim]
  exact TagSequence.ofFilters_split_join hcomma q.options

theorem itinerary_separated_eq_iff (hs : q.sequence = some s)
    (hblank : Text.isBlank s = false) :
    (q.separated s).itinerary = q.itinerary ↔ ¬ q.OpensFreely s := by
  have hcomma : ∀ piece ∈ (splitSequence s q.beginAtStart).2, ',' ∉ piece.toList :=
    fun piece h => not_mem_of_mem_splitSequence (Or.inr h)
  rw [itinerary, itinerary, sequence?_of_not_isBlank hs hblank, separated, splitSequence_trim,
    opensFreely_iff hblank]
  exact Itinerary.parse_join_eq_iff hcomma q.beginAtStart

/-- Where the sequence opens freely, it frees the first hop and the separate filters every hop. -/
theorem itinerary_of_opensFreely (hs : q.sequence = some s) (hblank : Text.isBlank s = false)
    (hfree : q.OpensFreely s) :
    q.itinerary = ⟨some .wildcard, []⟩ ∧ (q.separated s).itinerary = .unrestricted := by
  obtain ⟨hbegin, position, hedges, hposition⟩ := (opensFreely_iff hblank).mp hfree
  constructor
  · rw [itinerary, sequence?_of_not_isBlank hs hblank]
    dsimp only
    rw [hedges, hbegin, Itinerary.ofPositions_of_isBlank hposition, if_neg Bool.false_ne_true]
  · rw [itinerary, separated, splitSequence_trim, hedges, Text.join_singleton]
    exact if_pos hposition

end Request

theorem Plan.eq_iff {plan plan' : Plan} :
    plan = plan' ↔ plan.evaluator = plan'.evaluator ∧ plan.itinerary = plan'.itinerary ∧
      plan.bounds = plan'.bounds := by
  cases plan
  cases plan'
  rw [Plan.mk.injEq]

theorem Request.itinerary_plan (q : Request) : q.plan.itinerary = q.itinerary := rfl

/-- **A sequence and its filters written separately compile to the same plan**, unless the
sequence opens freely.  Then the evaluators and the bounds are still the same, but the sequence
follows every edge on the first hop and none after it, and the filters every edge on every hop. -/
theorem compile_separated {q : Request} {s : String} (hq : q.validate = .ok ())
    (hs : q.sequence = some s) (hblank : Text.isBlank s = false) :
    ∃ plan plan', q.compile = .ok plan ∧ (q.separated s).compile = .ok plan' ∧
      plan'.evaluator = plan.evaluator ∧ plan'.bounds = plan.bounds ∧
      (plan' = plan ↔ ¬ q.OpensFreely s) ∧
      (q.OpensFreely s →
        plan.itinerary.stepsAt 0 = [.wildcard] ∧
        (∀ depth, plan.itinerary.stepsAt (depth + 1) = []) ∧
        ∀ depth, plan'.itinerary.stepsAt depth = [.wildcard]) := by
  have hvalid : (q.separated s).validate = .ok () := hq
  have hevaluator : (q.separated s).plan.evaluator = q.plan.evaluator := by
    rw [Request.plan, Request.plan, Request.filters, Request.filters,
      Request.tagSequence_separated hs hblank]
    rfl
  refine ⟨q.plan, (q.separated s).plan, Request.compile_eq_ok_iff.mpr ⟨hq, rfl⟩,
    Request.compile_eq_ok_iff.mpr ⟨hvalid, rfl⟩, hevaluator, rfl, ?_, fun hfree => ?_⟩
  · rw [Plan.eq_iff, Request.itinerary_plan, Request.itinerary_plan,
      Request.itinerary_separated_eq_iff hs hblank]
    exact ⟨fun h => h.2.1, fun h => ⟨hevaluator, h, rfl⟩⟩
  · obtain ⟨hfirst, hevery⟩ := Request.itinerary_of_opensFreely hs hblank hfree
    rw [Request.itinerary_plan, Request.itinerary_plan, hfirst, hevery]
    exact ⟨rfl, Itinerary.stepsAt_succ_of_repeating_nil rfl, Itinerary.stepsAt_unrestricted⟩

/-- Three pieces give the same plan as the filters, and two of which the first is blank do not. -/
theorem compile_separated_first_hop :
    Request.plan { tagFilter := some "Person", edgeFilter := some ",KNOWS>",
                   beginAtStart := false }
        = Request.plan { sequence := some " , Person, KNOWS> ", beginAtStart := false } ∧
      Request.plan { tagFilter := some "Person", edgeFilter := some "", beginAtStart := false }
        ≠ Request.plan { sequence := some " , Person ", beginAtStart := false } := by
  constructor
  · obtain ⟨plan, plan', hplan, hplan', -, -, hiff, -⟩ := @compile_separated
      { sequence := some " , Person, KNOWS> ", beginAtStart := false } " , Person, KNOWS> " rfl rfl
      (by decide)
    cases hplan
    cases hplan'
    refine hiff.mpr ?_
    rintro ⟨-, first, second, hsplit, -⟩
    have hthree : (Text.split ',' (Text.trim " , Person, KNOWS> ")).length = 3 := by decide
    rw [hsplit] at hthree
    cases hthree
  · obtain ⟨plan, plan', hplan, hplan', -, -, hiff, -⟩ := @compile_separated
      { sequence := some " , Person ", beginAtStart := false } " , Person " rfl rfl (by decide)
    cases hplan
    cases hplan'
    exact fun heq => hiff.mp heq ⟨rfl, "", " Person", by decide, by decide⟩

end WalkFilter
