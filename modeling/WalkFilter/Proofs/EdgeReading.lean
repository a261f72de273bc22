/-
What the text of a request says of a hop.

`Request.readHop` reads the steps to try from a path off the text of the
request: it looks for the one piece that is about the hop and lists the steps
of its alternatives.  It builds no selectors and no itinerary.

* **`selectorAt_ofPositions`** — the positions of an itinerary come round as
  the pieces do: all of them, or all but the one for the first hop;
* **`stepsAt_eq_readHop`** — a compiled request follows the edges that its
  text names.
-/
import WalkFilter.Proofs.Interleaved
import WalkFilter.Proofs.Reading

namespace WalkFilter

/-- The steps that a piece spells out.  A blank piece asks for every edge, either way. -/
def readSteps (piece : String) : List EdgeStep :=
  match (Text.split '|' piece).filter (!Text.isBlank ·) with
  | [] => [⟨none, .both⟩]
  | alternative :: rest => (alternative :: rest).map EdgeStep.parse

/-- The piece about the hop from a path of this length.  Where the first piece is about the first
hop, the others come round from the second hop on, and there may be none. -/
def pieceAt (pieces : List String) (beginAtStart : Bool) (depth : Nat) : Option String :=
  if beginAtStart then pieces[depth % pieces.length]?
  else if depth = 0 then pieces[0]?
  else if pieces.length = 1 then none
  else pieces[1 + (depth - 1) % (pieces.length - 1)]?

namespace Request

/-- The pieces of the text that are about edges: those of the edge filter, or every other one of
the sequence. -/
def edgePieces (q : Request) : List String :=
  if Text.isBlank (q.sequence.getD "") then
    if Text.isBlank (q.edgeFilter.getD "") then [] else Text.split ',' (q.edgeFilter.getD "")
  else everyOther q.beginAtStart (Text.split ',' (Text.trim (q.sequence.getD "")))

/-- The steps to try from a path of this length.  Without pieces every edge is followed. -/
def readHop (q : Request) (depth : Nat) : List EdgeStep :=
  if q.edgePieces = [] then [⟨none, .both⟩]
  else match pieceAt q.edgePieces q.beginAtStart depth with
    | none => []
    | some piece => readSteps piece

end Request

/-! ### The steps of a piece -/

theorem Selector.steps_parse (piece : String) : (parse piece).steps = readSteps piece := by
  unfold parse readSteps
  cases (Text.split '|' piece).filter (!Text.isBlank ·) with
  | nil => rfl
  | cons alternative rest => rfl

theorem EdgeStep.parse_trim (s : String) : parse (Text.trim s) = parse s := by
  have h : Chars.trim (Text.trim s).toList = Chars.trim s.toList := by
    rw [Text.trim, String.toList_ofList, Chars.trim_trim]
  rw [parse, parse, h]

/-- A piece may be trimmed before it is read. -/
theorem readSteps_trim (piece : String) : readSteps (Text.trim piece) = readSteps piece := by
  -- Both read the trimmed alternatives, and these are the same.
  have h : ∀ s : String, (Selector.parse s).steps
      = (Selector.ofSteps ((((Text.split '|' s).map Text.trim).filter (!Text.isBlank ·)).map
          EdgeStep.parse)).steps := by
    intro s
    rw [Selector.parse, List.filter_map, List.map_map]
    have hblank : (fun x => !Text.isBlank x) ∘ Text.trim = fun x => !Text.isBlank x := by
      funext x
      rw [Function.comp_apply, Text.isBlank_trim]
    have hparse : EdgeStep.parse ∘ Text.trim = EdgeStep.parse := by
      funext x
      rw [Function.comp_apply, EdgeStep.parse_trim]
    rw [hblank, hparse]
  have hbar : ¬ Chars.isBlank '|' := by decide
  rw [← Selector.steps_parse, ← Selector.steps_parse, h, h piece, Text.map_trim_split_trim hbar]

/-! ### The pieces of an itinerary -/

theorem pieceAt_map_trim (pieces : List String) (beginAtStart : Bool) (depth : Nat) :
    pieceAt (pieces.map Text.trim) beginAtStart depth
      = (pieceAt pieces beginAtStart depth).map Text.trim := by
  unfold pieceAt
  rw [List.length_map]
  split_ifs
  all_goals simp

theorem pieceAt_cons_succ (first : String) (rest : List String) (d : Nat) :
    pieceAt (first :: rest) false (d + 1) = rest[d % rest.length]? := by
  rw [pieceAt, if_neg Bool.false_ne_true, if_neg (Nat.succ_ne_zero d)]
  rcases rest with _ | ⟨second, others⟩
  · rfl
  · have hlen : ¬ (first :: second :: others).length = 1 := by simp
    rw [if_neg hlen, Nat.add_comm 1, List.getElem?_cons_succ]
    rfl

namespace DepthCycle

variable {α : Type}

theorem at?_of_not_offset (positions : List α) (depth : Nat) :
    at? ⟨positions, false⟩ depth = positions[depth % positions.length]? := by
  cases positions <;> rfl

theorem at?_succ_of_offset (positions : List α) (d : Nat) :
    at? ⟨positions, true⟩ (d + 1) = positions[d % positions.length]? := by
  cases positions <;> rfl

end DepthCycle

namespace Itinerary

/-- **The positions of an itinerary come round as its pieces do.** -/
theorem selectorAt_ofPositions {pieces : List String} (hne : pieces ≠ []) (beginAtStart : Bool)
    (depth : Nat) :
    (ofPositions pieces beginAtStart).selectorAt depth
      = (pieceAt pieces beginAtStart depth).map Selector.parse := by
  obtain ⟨first, rest, rfl⟩ := List.exists_cons_of_ne_nil hne
  cases beginAtStart with
  | true =>
    show DepthCycle.at? ⟨(first :: rest).map Selector.parse, false⟩ depth = _
    rw [DepthCycle.at?_of_not_offset, pieceAt, if_pos rfl, List.length_map, List.getElem?_map]
  | false =>
    rcases depth with _ | d
    · rfl
    · show DepthCycle.at? ⟨rest.map Selector.parse, true⟩ (d + 1) = _
      rw [DepthCycle.at?_succ_of_offset, pieceAt_cons_succ, List.length_map, List.getElem?_map]

theorem stepsAt_ofPositions {pieces : List String} (hne : pieces ≠ []) (beginAtStart : Bool)
    (depth : Nat) :
    (ofPositions pieces beginAtStart).stepsAt depth
      = match pieceAt pieces beginAtStart depth with
        | none => []
        | some piece => readSteps piece := by
  rw [stepsAt, selectorAt_ofPositions hne]
  cases pieceAt pieces beginAtStart depth with
  | none => rfl
  | some piece => exact Selector.steps_parse piece

end Itinerary

namespace Request

/-- The itinerary of a request is that of its pieces, trimmed or not. -/
theorem stepsAt_itinerary (q : Request) (depth : Nat) :
    q.itinerary.stepsAt depth = q.readHop depth := by
  have hnone : Itinerary.unrestricted.stepsAt depth = [⟨none, .both⟩] :=
    Itinerary.stepsAt_unrestricted depth
  unfold itinerary readHop edgePieces
  rw [sequence?_eq]
  by_cases hseq : Text.isBlank (q.sequence.getD "")
  · simp only [if_pos hseq]
    rcases hfilter : q.edgeFilter with _ | filter
    · exact hnone
    · show (Itinerary.parse (some filter) q.beginAtStart).stepsAt depth = _
      rw [Itinerary.parse]
      by_cases hblank : Text.isBlank filter
      · simp [hblank, hnone]
      · simp [hblank, Itinerary.stepsAt_ofPositions, Text.split_ne_nil]
  · simp only [if_neg hseq]
    have hpieces : (splitSequence (q.sequence.getD "") q.beginAtStart).2
        = (everyOther q.beginAtStart (Text.split ',' (Text.trim (q.sequence.getD "")))).map
            Text.trim := by
      rw [← splitSequence_trim, splitSequence_eq]
    rw [hpieces]
    generalize everyOther q.beginAtStart (Text.split ',' (Text.trim (q.sequence.getD ""))) = pieces
    rcases eq_or_ne pieces [] with rfl | hne
    · exact hnone
    · rw [if_neg hne, Itinerary.stepsAt_ofPositions (by simpa using hne), pieceAt_map_trim]
      cases pieceAt pieces q.beginAtStart depth with
      | none => rfl
      | some piece => exact readSteps_trim piece

end Request

/-- **A compiled request follows the edges that its text names.** -/
theorem stepsAt_eq_readHop {q : Request} (hq : q.validate = .ok ()) :
    ∃ plan, q.compile = .ok plan ∧
      ∀ depth, plan.itinerary.stepsAt depth = q.readHop depth := by
  refine ⟨q.plan, Request.compile_eq_ok_iff.mpr ⟨hq, rfl⟩, fun depth => ?_⟩
  rw [Request.itinerary_plan]
  exact q.stepsAt_itinerary depth

/-- A sequence that begins on the first hop: its second piece about edges comes round again on the
fourth hop, and the one between them is blank. -/
theorem stepsAt_eq_readHop_of_sequence :
    ∃ plan,
      Request.compile { sequence := some " KNOWS> , A , <LIKES | SEES, B, | , C ",
                        beginAtStart := false } = .ok plan ∧
      plan.itinerary.stepsAt 0 = [⟨some "KNOWS", .outgoing⟩] ∧
      plan.itinerary.stepsAt 2 = [⟨none, .both⟩] ∧
      plan.itinerary.stepsAt 3 = [⟨some "LIKES", .incoming⟩, ⟨some "SEES", .both⟩] := by
  obtain ⟨plan, hplan, hread⟩ := @stepsAt_eq_readHop
    { sequence := some " KNOWS> , A , <LIKES | SEES, B, | , C ", beginAtStart := false } rfl
  refine ⟨plan, hplan, (hread 0).trans ?_, (hread 2).trans ?_, (hread 3).trans ?_⟩
  all_goals decide

end WalkFilter
