/-
The report on a request, told from its text.

A report says what a request compiles to.  The same can be said without
compiling it: by counting commas, by looking at which filters are blank and
which lists of vertices are empty, and by comparing bounds.

* **`size_tagSequence`**, **`length_repeating_itinerary`** — how many positions
  a request has follows from the commas of its filters;
* **`summary_plan`** — the summary of a compiled request is its outline;
* **`report_outlines`** — the report on a request file is that outline, and
  there is none just if the bounds of the request contradict each other.
-/
import WalkFilter.Proofs.Reading
import WalkFilter.Report.Check

namespace WalkFilter

/-- The number of pieces between commas. -/
def pieceCount (s : String) : ℕ := s.toList.count ',' + 1

namespace Request

/-- The number of tag rules that a request spells out.  Every other piece of a sequence is one,
and a request has at least one. -/
def tagPositions (q : Request) : ℕ :=
  if Text.isBlank (q.sequence.getD "") then (q.tagFilter.map pieceCount).getD 1
  else if q.beginAtStart then max 1 ((pieceCount (q.sequence.getD "") + 1) / 2)
  else max 1 (pieceCount (q.sequence.getD "") / 2)

/-- The number of edge positions that come round. -/
def edgePositions (q : Request) : ℕ :=
  if Text.isBlank (q.sequence.getD "") then
    if Text.isBlank (q.edgeFilter.getD "") then 1
    else if q.beginAtStart then pieceCount (q.edgeFilter.getD "")
    else pieceCount (q.edgeFilter.getD "") - 1
  else if q.beginAtStart then max 1 (pieceCount (q.sequence.getD "") / 2)
  else (pieceCount (q.sequence.getD "") + 1) / 2 - 1

/-- Is a position of its own spelled out for the first hop? -/
def hasFirstStep (q : Request) : Bool :=
  !q.beginAtStart && !(Text.isBlank (q.sequence.getD "") && Text.isBlank (q.edgeFilter.getD ""))

/-- The kinds of the filters of a request: its tags, and its lists of vertices unless empty. -/
def memberKinds (q : Request) : List String :=
  "tag-sequence"
    :: (if q.whitelist = [] then [] else ["whitelist"])
    ++ (if q.blacklist = [] then [] else ["blacklist"])
    ++ (if q.ends = [] ∧ q.terminators = [] then [] else ["end-and-terminator"])

/-- What a request compiles to. -/
def outline (q : Request) : PlanSummary where
  evaluator := if 1 < q.memberKinds.length then "all" else "tag-sequence"
  members := q.memberKinds
  tagPositions := q.tagPositions
  edgePositions := q.edgePositions
  firstStep := q.hasFirstStep
  bounds := q.bounds

/-- The bounds contradict each other, or they are not those of a subgraph and have to be. -/
def BadBounds (q : Request) (subgraph : Bool) : Prop :=
  (subgraph = true ∧ 1 < q.minLevel) ∨ ∃ m, q.maxLevel = some m ∧ m < q.minLevel

end Request

/-! ### Positions -/

theorem length_splitSequence (s : String) (beginAtStart : Bool) :
    (splitSequence s beginAtStart).1.length
        = (if beginAtStart then (pieceCount s + 1) / 2 else pieceCount s / 2) ∧
      (splitSequence s beginAtStart).2.length
        = if beginAtStart then pieceCount s / 2 else (pieceCount s + 1) / 2 := by
  have hcount : ((Text.split ',' s).map Text.trim).length = pieceCount s := by
    rw [List.length_map, Text.length_split]
    rfl
  obtain ⟨hevens, hodds⟩ := length_alternate ((Text.split ',' s).map Text.trim)
  rw [hcount] at hevens hodds
  cases beginAtStart with
  | true => exact ⟨hevens, hodds⟩
  | false => exact ⟨hodds, hevens⟩

theorem Request.size_tagSequence (q : Request) : q.tagSequence.size = q.tagPositions := by
  rw [tagSequence, tagPositions, sequence?_eq]
  by_cases hseq : Text.isBlank (q.sequence.getD "")
  · rw [if_pos hseq, if_pos hseq]
    show (TagSequence.parse q.tagFilter q.options).size = _
    rw [TagSequence.parse, TagSequence.size_ofFilters, Text.length_split]
    cases q.tagFilter with
    | none => rfl
    | some filter => exact Nat.max_eq_right (Nat.le_add_left 1 _)
  · rw [if_neg hseq, if_neg hseq]
    show (TagSequence.ofFilters (splitSequence (q.sequence.getD "") q.beginAtStart).1
      q.options).size = _
    rw [TagSequence.size_ofFilters, (length_splitSequence _ _).1]
    cases q.beginAtStart <;> rfl

namespace Itinerary

/-- How many positions come round.  Without any, every edge is followed. -/
theorem length_repeating_ofPositions (positions : List String) (beginAtStart : Bool) :
    (ofPositions positions beginAtStart).repeating.length
      = if beginAtStart then max 1 positions.length
        else if positions.length = 0 then 1 else positions.length - 1 := by
  rcases positions with _ | ⟨first, rest⟩
  · cases beginAtStart <;> rfl
  · cases beginAtStart with
    | true =>
      show ((first :: rest).map Selector.parse).length = max 1 (rest.length + 1)
      rw [List.length_map, List.length_cons]
      exact (Nat.max_eq_right (Nat.le_add_left 1 _)).symm
    | false => exact List.length_map ..

/-- One position is left for the first hop if the filter does not begin at the start. -/
theorem isSome_first_ofPositions (positions : List String) (beginAtStart : Bool) :
    (ofPositions positions beginAtStart).first.isSome
      = (!beginAtStart && positions.length != 0) := by
  rcases positions with _ | ⟨first, rest⟩ <;> cases beginAtStart <;> rfl

theorem parse_eq (filter : Option String) (beginAtStart : Bool) :
    parse filter beginAtStart
      = if Text.isBlank (filter.getD "") then unrestricted
        else ofPositions (Text.split ',' (filter.getD "")) beginAtStart := by
  cases filter <;> rfl

end Itinerary

theorem pieceCount_pos (s : String) : 0 < pieceCount s := Nat.succ_pos _

namespace Request

/-- The edge positions of a request are those of its sequence, unless that is blank. -/
theorem itinerary_eq (q : Request) :
    q.itinerary
      = if Text.isBlank (q.sequence.getD "") then .parse q.edgeFilter q.beginAtStart
        else .ofPositions (splitSequence (q.sequence.getD "") q.beginAtStart).2 q.beginAtStart := by
  rw [itinerary, sequence?_eq]
  split_ifs <;> rfl

theorem length_repeating_itinerary (q : Request) :
    q.itinerary.repeating.length = q.edgePositions := by
  rw [itinerary_eq, edgePositions]
  by_cases hseq : Text.isBlank (q.sequence.getD "")
  · rw [if_pos hseq, if_pos hseq, Itinerary.parse_eq]
    by_cases hedges : Text.isBlank (q.edgeFilter.getD "")
    · rw [if_pos hedges, if_pos hedges]
      rfl
    · have hpos := pieceCount_pos (q.edgeFilter.getD "")
      rw [if_neg hedges, if_neg hedges, Itinerary.length_repeating_ofPositions,
        Text.length_split, ← pieceCount]
      split_ifs <;> omega
  · have hpos := pieceCount_pos (q.sequence.getD "")
    rw [if_neg hseq, if_neg hseq, Itinerary.length_repeating_ofPositions,
      (length_splitSequence _ _).2]
    split_ifs <;> omega

theorem isSome_first_itinerary (q : Request) : q.itinerary.first.isSome = q.hasFirstStep := by
  rw [itinerary_eq, hasFirstStep]
  by_cases hseq : Text.isBlank (q.sequence.getD "")
  · rw [if_pos hseq, hseq, Bool.true_and, Itinerary.parse_eq]
    by_cases hedges : Text.isBlank (q.edgeFilter.getD "")
    · rw [if_pos hedges, hedges]
      exact (Bool.and_false _).symm
    · rw [if_neg hedges, Bool.eq_false_iff.mpr hedges, Itinerary.isSome_first_ofPositions,
        Text.length_split]
      rfl
  · rw [if_neg hseq, Bool.eq_false_iff.mpr hseq, Bool.false_and, Bool.not_false, Bool.and_true,
      Itinerary.isSome_first_ofPositions, (length_splitSequence _ _).2]
    cases q.beginAtStart with
    | true => rfl
    | false =>
      -- The first piece of the sequence is an edge position.
      have hpos := pieceCount_pos (q.sequence.getD "")
      have hedges : (pieceCount (q.sequence.getD "") + 1) / 2 ≠ 0 := by omega
      simp [hedges]

/-! ### Members -/

theorem kind_allOf (s : TagSequence) (rest : List Evaluator) :
    (Evaluator.allOf (.tagSequence s :: rest)).kind
      = if 1 < (Evaluator.tagSequence s :: rest).length then "all" else "tag-sequence" := by
  cases rest <;> rfl

theorem members_allOf (s : TagSequence) (rest : List Evaluator) :
    (Evaluator.allOf (.tagSequence s :: rest)).members = .tagSequence s :: rest := by
  cases rest <;> rfl

theorem map_kind_filters (q : Request) : q.filters.map (·.kind) = q.memberKinds := by
  have hwhite : (if q.whitelist.isEmpty then []
      else [Evaluator.whitelist ⟨.ofList q.whitelist, q.filterStart⟩]).map (·.kind)
        = if q.whitelist = [] then [] else ["whitelist"] := by
    cases q.whitelist <;> rfl
  have hblack : (if q.blacklist.isEmpty then []
      else [Evaluator.blacklist ⟨.ofList q.blacklist, q.filterStart⟩]).map (·.kind)
        = if q.blacklist = [] then [] else ["blacklist"] := by
    cases q.blacklist <;> rfl
  have hends : ((EndList.ofLists? q.ends q.terminators q.filterStart q.minLevel).toList.map
      Evaluator.endAndTerminator).map (·.kind)
        = if q.ends = [] ∧ q.terminators = [] then [] else ["end-and-terminator"] := by
    cases q.ends <;> cases q.terminators <;> rfl
  rw [filters, memberKinds, List.map_append, List.map_append, List.map_cons, hwhite, hblack, hends]
  rfl

/-- **The summary of a compiled request** is its outline. -/
theorem summary_plan (q : Request) : q.plan.summary = q.outline := by
  obtain ⟨rest, hfilters⟩ : ∃ rest, q.filters = .tagSequence q.tagSequence :: rest := ⟨_, rfl⟩
  have hevaluator : q.plan.evaluator = .allOf (.tagSequence q.tagSequence :: rest) :=
    congrArg Evaluator.allOf hfilters
  have hlength : q.filters.length = q.memberKinds.length := by
    rw [← map_kind_filters, List.length_map]
  have hkind : q.plan.evaluator.kind
      = if 1 < q.memberKinds.length then "all" else "tag-sequence" := by
    rw [hevaluator, kind_allOf, ← hfilters, hlength]
  have hmembers : q.plan.evaluator.members.map (·.kind) = q.memberKinds := by
    rw [hevaluator, members_allOf, ← hfilters, map_kind_filters]
  have hsize : (q.plan.evaluator.tagSequence?.map (·.size)).getD 0 = q.tagPositions := by
    rw [tagSequence?_plan, Option.map_some, Option.getD_some, size_tagSequence]
  rw [Plan.summary, hkind, hmembers, hsize]
  show PlanSummary.mk _ _ _ q.itinerary.repeating.length q.itinerary.first.isSome q.bounds = _
  rw [length_repeating_itinerary, isSome_first_itinerary]
  rfl

/-! ### Reports -/

/-- The request that is compiled: every vertex is reached at most once in a subgraph. -/
def adapted (q : Request) (subgraph : Bool) : Request :=
  { q with uniqueness := if subgraph then .nodeGlobal else q.uniqueness }

end Request

/-- The refusal is about the bounds of a request. -/
def RequestError.IsAboutBounds : RequestError → Prop
  | maxBelowMin _ _ | subgraphMinLevel _ => True
  | malformed | unreadable => False

section Report

variable {file : String} {content : Option ByteArray} {q : Request}

theorem request_of_refused (hq : Request.ofFile file content = .ok q) {subgraph : Bool}
    (h : subgraph = true ∧ 1 < q.minLevel) :
    CheckQuery.request ⟨file, subgraph⟩ content = .error (.subgraphMinLevel q.minLevel) := by
  obtain ⟨rfl, hmin⟩ := h
  rw [CheckQuery.request, hq]
  exact if_pos hmin

theorem request_of_not_refused (hq : Request.ofFile file content = .ok q) {subgraph : Bool}
    (h : ¬ (subgraph = true ∧ 1 < q.minLevel)) :
    CheckQuery.request ⟨file, subgraph⟩ content = .ok (q.adapted subgraph) := by
  rw [CheckQuery.request, hq]
  cases subgraph with
  | true => exact if_neg fun hmin => h ⟨rfl, hmin⟩
  | false => rfl

theorem compile_cases (q : Request) :
    (∃ m, (q.maxLevel = some m ∧ m < q.minLevel) ∧
        q.compile = .error (.maxBelowMin m q.minLevel)) ∨
      ((¬ ∃ m, q.maxLevel = some m ∧ m < q.minLevel) ∧ q.compile = .ok q.plan) := by
  by_cases h : ∃ m, q.maxLevel = some m ∧ m < q.minLevel
  · obtain ⟨m, hmax, hm⟩ := h
    refine Or.inl ⟨m, ⟨hmax, hm⟩, ?_⟩
    rw [Request.compile, Request.validate, hmax]
    dsimp only
    rw [if_pos hm]
    rfl
  · have hvalid : q.validate = .ok () :=
      Request.validate_eq_ok_iff.mpr fun m hmax => UInt64.not_lt.mp fun hm => h ⟨m, hmax, hm⟩
    exact Or.inr ⟨h, Request.compile_eq_ok_iff.mpr ⟨hvalid, rfl⟩⟩

/-- **What becomes of a request file**: one of two refusals, or a report on what it outlines. -/
theorem report_cases (hq : Request.ofFile file content = .ok q) (subgraph : Bool) :
    ((subgraph = true ∧ 1 < q.minLevel) ∧
        CheckQuery.report ⟨file, subgraph⟩ content = .error (.subgraphMinLevel q.minLevel)) ∨
      (∃ m, (q.maxLevel = some m ∧ m < q.minLevel) ∧
        CheckQuery.report ⟨file, subgraph⟩ content = .error (.maxBelowMin m q.minLevel)) ∨
      (¬ q.BadBounds subgraph ∧
        CheckQuery.report ⟨file, subgraph⟩ content
          = .ok ((q.adapted subgraph).outline.report file)) := by
  rw [CheckQuery.report]
  by_cases hsub : subgraph = true ∧ 1 < q.minLevel
  · refine Or.inl ⟨hsub, ?_⟩
    rw [request_of_refused hq hsub]
    rfl
  · rw [request_of_not_refused hq hsub]
    show _ ∨ (∃ m, _ ∧ (q.adapted subgraph).compile.map _ = _) ∨
      (_ ∧ (q.adapted subgraph).compile.map _ = _)
    -- The bounds that are compared are those of the request as it was read.
    obtain ⟨m, hm, hcompile⟩ | ⟨hmax, hcompile⟩ := compile_cases (q.adapted subgraph)
    · refine Or.inr (Or.inl ⟨m, hm, ?_⟩)
      rw [hcompile]
      rfl
    · refine Or.inr (Or.inr ⟨?_, ?_⟩)
      · rintro (h | h)
        · exact hsub h
        · exact hmax h
      · rw [hcompile]
        show Except.ok ((q.adapted subgraph).plan.summary.report file) = _
        rw [Request.summary_plan]

/-- **The report on a request file** says what the text of the request asks for.  There is none,
and the bounds are to blame, just if the greatest length is below the least, or the least length
is above 1 and the request is for a subgraph. -/
theorem report_outlines (hq : Request.ofFile file content = .ok q) (subgraph : Bool) :
    ((∃ e, CheckQuery.report ⟨file, subgraph⟩ content = .error e) ↔ q.BadBounds subgraph) ∧
      (∀ e, CheckQuery.report ⟨file, subgraph⟩ content = .error e → e.IsAboutBounds) ∧
      (¬ q.BadBounds subgraph →
        CheckQuery.report ⟨file, subgraph⟩ content = .ok
          { lines := (q.adapted subgraph).outline.lines file
            json := .object
              [("file", .string file),
               ("evaluator",
                .string (if 1 < q.memberKinds.length then "all" else "tag-sequence")),
               ("members", .array (q.memberKinds.map .string)),
               ("tagPositions", .natural q.tagPositions),
               ("edgePositions", .natural q.edgePositions),
               ("initialStep", .bool q.hasFirstStep),
               ("bounds", (q.adapted subgraph).bounds.toJson)] }) := by
  obtain ⟨hbad, hreport⟩ | ⟨m, hbad, hreport⟩ | ⟨hbad, hreport⟩ := report_cases hq subgraph
  · rw [hreport]
    refine ⟨⟨fun _ => Or.inl hbad, fun _ => ⟨_, rfl⟩⟩, ?_, fun h => absurd (Or.inl hbad) h⟩
    rintro e ⟨⟩
    exact trivial
  · rw [hreport]
    refine ⟨⟨fun _ => Or.inr ⟨m, hbad⟩, fun _ => ⟨_, rfl⟩⟩, ?_,
      fun h => absurd (Or.inr ⟨m, hbad⟩) h⟩
    rintro e ⟨⟩
    exact trivial
  · rw [hreport]
    refine ⟨⟨?_, fun h => absurd h hbad⟩, ?_, fun _ => rfl⟩
    · rintro ⟨e, ⟨⟩⟩
    · rintro e ⟨⟩

/-- A sequence of five pieces that begins with the first hop.  Its least length is too great for a
subgraph. -/
theorem report_outlines_first_hop :
    CheckQuery.report ⟨"walk.json", false⟩
        (some ("\x7b\"sequence\":\"K>,A,<L,B,M\",\"beginSequenceAtStart\":false,\"minLevel\":2,"
          ++ "\"whitelistNodes\":[1],\"endNodes\":[2]\x7d").toUTF8)
      = .ok
        { lines :=
            ["Request:   walk.json",
             "Evaluator: all [tag-sequence, whitelist, end-and-terminator]",
             "Tag positions:  2",
             "Edge positions: 2 + initial step",
             "Levels:    2..unbounded",
             "Uniqueness: RelationshipPath",
             "Order:     breadth-first"]
          json := .object
            [("file", .string "walk.json"), ("evaluator", .string "all"),
             ("members",
              .array [.string "tag-sequence", .string "whitelist", .string "end-and-terminator"]),
             ("tagPositions", .natural 2), ("edgePositions", .natural 2),
             ("initialStep", .bool true),
             ("bounds", .object
               [("minLevel", .natural 2), ("maxLevel", .null), ("limit", .null),
                ("uniqueness", .string "RELATIONSHIP_PATH"), ("bfs", .bool true),
                ("optional", .bool false)])] } ∧
      ∃ e, CheckQuery.report ⟨"walk.json", true⟩
        (some ("\x7b\"sequence\":\"K>,A,<L,B,M\",\"beginSequenceAtStart\":false,\"minLevel\":2,"
          ++ "\"whitelistNodes\":[1],\"endNodes\":[2]\x7d").toUTF8) = .error e := by
  have hformat : RequestFormat.ofPath "walk.json" = .json := by
    have hextension : RequestFormat.extension? "walk.json" = some "json" := by decide
    rw [RequestFormat.ofPath, hextension]
    simp [String.toLower, ← String.toList_inj]
  have hread : Request.ofFile "walk.json"
      (some ("\x7b\"sequence\":\"K>,A,<L,B,M\",\"beginSequenceAtStart\":false,\"minLevel\":2,"
        ++ "\"whitelistNodes\":[1],\"endNodes\":[2]\x7d").toUTF8)
        = .ok { sequence := some "K>,A,<L,B,M", beginAtStart := false, minLevel := 2,
                whitelist := [⟨1⟩], ends := [⟨2⟩] } := by
    show Request.ofText (.ofPath "walk.json") _ = _
    rw [hformat]
    rfl
  constructor
  · refine ((report_outlines hread false).2.2 ?_).trans rfl
    rintro (⟨hsub, -⟩ | ⟨m, hmax, -⟩)
    · cases hsub
    · cases hmax
  · exact (report_outlines hread true).1.mpr (Or.inl ⟨rfl, by decide⟩)

end Report

end WalkFilter
