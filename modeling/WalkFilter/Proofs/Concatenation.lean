/-
The answers of an expansion as one sequence.

The items of a cursor up to its first end are a sequence that may go on
forever, and so are the items of several steps one after the other.  An
expansion answers with the elements of that sequence up to the first fault,
whatever its source does: `rest` is the sequence that is left in a state, and
a call takes its first element.

* **`rest_next`** — a call answers with the first element of what is left and
  leaves the others;
* **`expand_answers`** — so the answers of an expansion are the items of the
  steps of its selector up to the first fault, and the end ever after.
-/
import Mathlib.Data.Seq.Basic
import WalkFilter.Proofs.Calls

namespace WalkFilter

variable {κ : Type}

namespace EdgeSource

/-- The items of a cursor up to its first end. -/
def items (src : EdgeSource κ) : κ → Stream'.Seq (Except Fault Edge) :=
  .corec fun c => (src.next c).1.map (·, (src.next c).2)

/-- The items of a step at a vertex: those of its cursor, or the fault that refuses it. -/
def itemsOfStep (src : EdgeSource κ) (v : VertexId) (s : EdgeStep) :
    Stream'.Seq (Except Fault Edge) :=
  match src.openCursor v s with
  | .ok c => src.items c
  | .error f => .cons (.error f) .nil

/-- The items of the steps at a vertex, one step after the other. -/
def itemsOf (src : EdgeSource κ) (v : VertexId) : List EdgeStep → Stream'.Seq (Except Fault Edge)
  | [] => .nil
  | s :: rest => (src.itemsOfStep v s).append (src.itemsOf v rest)

theorem items_of_end {src : EdgeSource κ} {c c' : κ} (h : src.next c = (none, c')) :
    src.items c = .nil := by
  refine Stream'.Seq.corec_nil _ c ?_
  rw [h]
  rfl

theorem items_of_item {src : EdgeSource κ} {c c' : κ} {a : Except Fault Edge}
    (h : src.next c = (some a, c')) : src.items c = .cons a (src.items c') := by
  refine Stream'.Seq.corec_cons ?_
  rw [h]
  rfl

end EdgeSource

/-- The elements up to the first fault, which is the last one then. -/
def upToFault : Stream'.Seq (Except Fault Edge) → Stream'.Seq (Except Fault Edge) :=
  .corec fun s => s.destruct.map fun
    | (.ok e, rest) => (.ok e, rest)
    | (.error f, _) => (.error f, .nil)

theorem upToFault_nil : upToFault .nil = .nil := by
  refine Stream'.Seq.corec_nil _ _ ?_
  rw [Stream'.Seq.destruct_nil]
  rfl

theorem upToFault_cons_ok (e : Edge) (s : Stream'.Seq (Except Fault Edge)) :
    upToFault (.cons (.ok e) s) = .cons (.ok e) (upToFault s) := by
  refine Stream'.Seq.corec_cons ?_
  rw [Stream'.Seq.destruct_cons]
  rfl

theorem upToFault_cons_error (f : Fault) (s : Stream'.Seq (Except Fault Edge)) :
    upToFault (.cons (.error f) s) = .cons (.error f) .nil := by
  have hcons : upToFault (.cons (.error f) s) = .cons (.error f) (upToFault .nil) := by
    refine Stream'.Seq.corec_cons ?_
    rw [Stream'.Seq.destruct_cons]
    rfl
  rw [hcons, upToFault_nil]

namespace Expansion

/-- The answers that are left before the end. -/
def rest (src : EdgeSource κ) (x : Expansion κ) : Stream'.Seq (Except Fault Edge) :=
  match x.cursor with
  | some c => upToFault ((src.items c).append (src.itemsOf x.vertex x.pending))
  | none => upToFault (src.itemsOf x.vertex x.pending)

theorem rest_finished (src : EdgeSource κ) (v : VertexId) : rest src (finished v) = .nil :=
  upToFault_nil

/-- A call takes the first element of a sequence and leaves the others. -/
def Takes (src : EdgeSource κ) (turn : Turn κ) (s : Stream'.Seq (Except Fault Edge)) : Prop :=
  turn.item = s.head ∧ rest src turn.state = s.tail

theorem takes_poll (src : EdgeSource κ) (v : VertexId) (c : κ) (pending : List EdgeStep)
    {onward : Unit → Turn κ} (h : Takes src (onward ()) (upToFault (src.itemsOf v pending))) :
    Takes src (poll src v c pending onward)
      (upToFault ((src.items c).append (src.itemsOf v pending))) := by
  unfold poll
  split
  · next e c' hnext =>
    rw [EdgeSource.items_of_item hnext, Stream'.Seq.cons_append, upToFault_cons_ok]
    exact ⟨rfl, rfl⟩
  · next f c' hnext =>
    rw [EdgeSource.items_of_item hnext, Stream'.Seq.cons_append, upToFault_cons_error]
    exact ⟨rfl, rest_finished src v⟩
  · next c' hnext =>
    rw [EdgeSource.items_of_end hnext, Stream'.Seq.nil_append]
    exact h

theorem takes_advance (src : EdgeSource κ) (v : VertexId) (steps : List EdgeStep) :
    Takes src (advance src v steps) (upToFault (src.itemsOf v steps)) := by
  induction steps with
  | nil =>
    rw [EdgeSource.itemsOf, upToFault_nil]
    exact ⟨rfl, rest_finished src v⟩
  | cons s steps ih =>
    rw [EdgeSource.itemsOf, EdgeSource.itemsOfStep, advance]
    cases src.openCursor v s with
    | error f =>
      dsimp only
      rw [Stream'.Seq.cons_append, upToFault_cons_error]
      exact ⟨rfl, rest_finished src v⟩
    | ok c => exact takes_poll src v c steps ih

/-- A call answers with the first element of what is left and leaves the others. -/
theorem rest_next (src : EdgeSource κ) (x : Expansion κ) : Takes src (next src x) (rest src x) := by
  have hadvance := takes_advance src x.vertex x.pending
  rw [next, rest]
  cases x.cursor with
  | none => exact hadvance
  | some c => exact takes_poll src x.vertex c x.pending hadvance

theorem item_call (src : EdgeSource κ) (x : Expansion κ) (n : Nat) :
    (call src x n).item = (rest src x).get? n := by
  induction n generalizing x with
  | zero => exact (rest_next src x).1
  | succ n ih => rw [call_succ, ih, (rest_next src x).2, Stream'.Seq.get?_tail]

/-- The answers are the items of the steps that the itinerary gives for the depth. -/
theorem item_call_expand (src : EdgeSource κ) (i : Itinerary) (p : Path) (n : Nat) :
    (call src (i.expand p) n).item
      = (upToFault (src.itemsOf p.last.id (i.stepsAt p.length))).get? n :=
  item_call src (i.expand p) n

/-- **The answers of an expansion are the items of the steps of its selector**, one step after the
other, up to the first fault, and the end ever after.  Where no selector is given for the depth, the
store is not asked at all. -/
theorem expand_answers (src : EdgeSource κ) (i : Itinerary) (p : Path) :
    (∀ s, i.selectorAt p.length = some s → ∀ n, (call src (i.expand p) n).item
      = (upToFault (src.itemsOf p.last.id s.steps)).get? n) ∧
    (i.selectorAt p.length = none → ∀ n,
      (call src (i.expand p) n).item = none ∧ trace src (i.expand p) n = []) := by
  refine ⟨fun s hs n => ?_, fun hnone n => ?_⟩
  · have hsteps : i.stepsAt p.length = s.steps := by
      rw [Itinerary.stepsAt, hs]
    rw [item_call_expand, hsteps]
  · have hsteps : i.stepsAt p.length = [] := by
      rw [Itinerary.stepsAt, hnone]
    have hidle : (i.expand p : Expansion κ).Idle := ⟨rfl, hsteps⟩
    refine ⟨?_, trace_of_idle src hidle n⟩
    rw [item_call_expand, hsteps]
    exact congrArg (Stream'.Seq.get? · n) upToFault_nil

/-- On the first hop the cursor of the first step goes on after its end, and is not asked again; the
second step is refused, and the third is not tried.  On the second hop there is no selector. -/
theorem expand_answers_two_hops :
    let i : Itinerary :=
      ⟨some ⟨[⟨some "A", .both⟩, ⟨some "B", .both⟩, ⟨some "C", .both⟩], List.cons_ne_nil _ _⟩, []⟩
    let e : Edge := ⟨⟨0⟩, "A", ⟨0⟩, ⟨1⟩⟩
    let f : Fault := .unknownEdgeType "B"
    let src : EdgeSource Nat :=
      ⟨fun _ s => if s.edgeType = some "B" then .error f else .ok 0,
        fun c => (if c = 1 then none else some (.ok e), c + 1)⟩
    let p : Path := .start ⟨⟨0⟩, .empty⟩
    let p' : Path := .hop p e ⟨⟨1⟩, .empty⟩
    (∀ n, (call src (i.expand p) n).item = [.ok e, .error f][n]?) ∧
      ∀ n, (call src (i.expand p') n).item = none ∧ trace src (i.expand p') n = [] := by
  intro i e f src p p'
  have hfirst : src.itemsOfStep ⟨0⟩ ⟨some "A", .both⟩ = .cons (.ok e) .nil := by
    have hedge : src.next 0 = (some (.ok e), 1) := rfl
    have hend : src.next 1 = (none, 2) := rfl
    show src.items 0 = _
    rw [EdgeSource.items_of_item hedge, EdgeSource.items_of_end hend]
  have hsecond : src.itemsOfStep ⟨0⟩ ⟨some "B", .both⟩ = .cons (.error f) .nil := rfl
  have hitems : upToFault (src.itemsOf ⟨0⟩
      [⟨some "A", .both⟩, ⟨some "B", .both⟩, ⟨some "C", .both⟩])
        = .ofList [.ok e, .error f] := by
    rw [EdgeSource.itemsOf, EdgeSource.itemsOf, hfirst, hsecond, Stream'.Seq.cons_append,
      Stream'.Seq.nil_append, Stream'.Seq.cons_append, upToFault_cons_ok, upToFault_cons_error,
      Stream'.Seq.ofList_cons, Stream'.Seq.ofList_cons, Stream'.Seq.ofList_nil]
  refine ⟨fun n => ?_, (expand_answers src i p').2 rfl⟩
  rw [(expand_answers src i p).1 _ rfl n, ← Stream'.Seq.ofList_get?, ← hitems]
  rfl

end Expansion

end WalkFilter
