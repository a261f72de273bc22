/-
What an expansion does to its store, call by call.

`Call` says all that one call can do: it passes over steps whose cursors are
at their end and stops at the first answer.  `Course` says what can come after
one another until the expansion is given up.  What holds of cursors is read
off these two, for every source and every number of calls:

* **`call_next`** — a call does what `Call` allows;
* **`course_trace`** — the calls together, and giving up, follow a `Course`;
* **`expand_disciplined`** — at most one cursor is open, no cursor is called
  after its last answer, each is closed once, and no step is tried too early.
-/
import WalkFilter.Search

namespace WalkFilter

/-- Something holds at every place of a list, of what stands before it, there and after it. -/
def AtEvery {α : Type} (R : List α → α → List α → Prop) (l : List α) : Prop :=
  ∀ before a after, l = before ++ a :: after → R before a after

namespace AtEvery

variable {α : Type} {R R' : List α → α → List α → Prop} {a : α} {l : List α}

theorem nil : AtEvery R [] := by
  intro before a after h
  simp at h

theorem cons (ha : R [] a l) (hl : AtEvery (fun before => R (a :: before)) l) :
    AtEvery R (a :: l) := by
  intro before b after h
  rcases List.cons_eq_append_iff.mp h with ⟨rfl, hb⟩ | ⟨before, rfl, hl'⟩
  · obtain ⟨rfl, rfl⟩ := List.cons.inj hb
    exact ha
  · exact hl before b after hl'

theorem imp (h : ∀ before b after, R before b after → R' before b after) (hl : AtEvery R l) :
    AtEvery R' l :=
  fun before b after hb => h before b after (hl before b after hb)

end AtEvery

namespace StoreEvent

/-- Is a cursor opened or closed? -/
def handles : StoreEvent → Bool
  | opened _ | closed => true
  | refused _ | polled _ => false

/-- The step that is tried, with success or without. -/
def tried? : StoreEvent → Option EdgeStep
  | opened s | refused s => some s
  | polled _ | closed => none

/-- Is the open cursor called? -/
def polls : StoreEvent → Bool
  | polled _ => true
  | opened _ | refused _ | closed => false

/-- May the cursor in use be called after this?  It has just been opened or has given an edge. -/
def ready : StoreEvent → Bool
  | opened _ | polled (some (.ok _)) => true
  | refused _ | polled (some (.error _)) | polled none | closed => false

/-- Does a fault come up? -/
def faults : StoreEvent → Bool
  | refused _ | polled (some (.error _)) => true
  | opened _ | polled (some (.ok _)) | polled none | closed => false

end StoreEvent

namespace Expansion

variable {κ : Type}

/-- The state after a number of calls. -/
def stateAfter (src : EdgeSource κ) (x : Expansion κ) : Nat → Expansion κ
  | 0 => x
  | n + 1 => (next src (stateAfter src x n)).state

/-- The call after `n` others. -/
def call (src : EdgeSource κ) (x : Expansion κ) (n : Nat) : Turn κ := next src (stateAfter src x n)

/-- All that `n` calls do to the store, and giving the expansion up after them. -/
def trace (src : EdgeSource κ) (x : Expansion κ) (n : Nat) : List StoreEvent :=
  (List.range n).flatMap (fun m => (call src x m).events) ++ (stateAfter src x n).drop

/-- An expansion over `steps` handles its cursors well in `n` calls and when it is given up. -/
structure Disciplined (src : EdgeSource κ) (steps : List EdgeStep) (x : Expansion κ) (n : Nat) :
    Prop where
  /-- cursors are opened and closed in turn, for the first steps one after the other -/
  inTurn : ∃ k, (trace src x n).filter (·.handles)
    = (steps.take k).flatMap fun s => [.opened s, .closed]
  /-- the steps are tried in order, each at most once -/
  inOrder : (trace src x n).filterMap (·.tried?) <+: steps
  /-- the first step is tried at the very beginning, and each other one in a call that has no
  item yet, right after the cursor before has answered its end and been closed -/
  onDemand : ∀ m < n, AtEvery (fun before e _ => e.tried?.isSome →
    (∀ a, .polled (some a) ∉ before) ∧
      ((m = 0 ∧ before = []) ∨ ∃ l, before = l ++ [.polled none, .closed])) (call src x m).events
  /-- a cursor is called when it has just been opened or has just given an edge, so not after
  it has answered its end or a fault -/
  whileReady : AtEvery (fun before e _ => e.polls → ∃ e', before.getLast? = some e' ∧ e'.ready)
    (trace src x n)
  /-- after a fault nothing is done but to close the cursor -/
  afterFault : AtEvery (fun _ e after => e.faults → ∀ e' ∈ after, e' = .closed) (trace src x n)
  /-- after a call that gives no edge nothing is done any more -/
  afterLast : ∀ m < n, (∀ e, (call src x m).item ≠ some (.ok e)) →
    (∀ k, m < k → k < n → (call src x k).events = []) ∧ (stateAfter src x n).drop = []
  /-- after a call a cursor is open just if the call gave an edge -/
  openAfter : ∀ m < n, (call src x m).state.hasOpenCursor = true
    ↔ ∃ e, (call src x m).item = some (.ok e)

/-! ### One call -/

/-- What a call can do, where a cursor may be open and steps may be left to try. -/
inductive Call : Bool → List EdgeStep → Turn κ → Prop where
  | edge (v : VertexId) (c : κ) (pending : List EdgeStep) (e : Edge) :
    Call true pending ⟨some (.ok e), [.polled (some (.ok e))], ⟨v, some c, pending⟩⟩
  | fault (v : VertexId) (pending : List EdgeStep) (f : Fault) :
    Call true pending ⟨some (.error f), [.polled (some (.error f)), .closed], finished v⟩
  | ended {pending : List EdgeStep} {turn : Turn κ} : Call false pending turn →
    Call true pending { turn with events := .polled none :: .closed :: turn.events }
  | opened (s : EdgeStep) {rest : List EdgeStep} {turn : Turn κ} : Call true rest turn →
    Call false (s :: rest) { turn with events := .opened s :: turn.events }
  | refused (v : VertexId) (s : EdgeStep) (rest : List EdgeStep) (f : Fault) :
    Call false (s :: rest) ⟨some (.error f), [.refused s], finished v⟩
  | exhausted (v : VertexId) : Call false [] ⟨none, [], finished v⟩

theorem call_poll (src : EdgeSource κ) (v : VertexId) (c : κ) (pending : List EdgeStep)
    {onward : Unit → Turn κ} (h : Call false pending (onward ())) :
    Call true pending (poll src v c pending onward) := by
  unfold poll
  split
  · exact .edge ..
  · exact .fault ..
  · exact .ended h

theorem call_advance (src : EdgeSource κ) (v : VertexId) (steps : List EdgeStep) :
    Call false steps (advance src v steps) := by
  induction steps with
  | nil => exact .exhausted v
  | cons s rest ih =>
    rw [advance]
    split
    · exact .refused ..
    · next c _ => exact .opened s (call_poll src v c rest ih)

/-- A call does what `Call` allows. -/
theorem call_next (src : EdgeSource κ) (x : Expansion κ) :
    Call x.hasOpenCursor x.pending (next src x) := by
  have hadvance := call_advance src x.vertex x.pending
  rw [next, hasOpenCursor]
  cases x.cursor with
  | none => exact hadvance
  | some c => exact call_poll src x.vertex c x.pending hadvance

/-- A call gives an edge and leaves the cursor open, or nothing is left to do after it. -/
theorem Call.outcome {isOpen : Bool} {pending : List EdgeStep} {turn : Turn κ}
    (h : Call isOpen pending turn) :
    ((∃ e, turn.item = some (.ok e)) ∧ turn.state.hasOpenCursor = true) ∨
      ((∀ e, turn.item ≠ some (.ok e)) ∧ turn.state.hasOpenCursor = false ∧
        turn.state.pending = []) := by
  induction h with
  | edge v c pending e => exact Or.inl ⟨⟨e, rfl⟩, rfl⟩
  | fault v pending f => exact Or.inr ⟨fun e => by simp, rfl, rfl⟩
  | ended _ ih => exact ih
  | opened s _ ih => exact ih
  | refused v s rest f => exact Or.inr ⟨fun e => by simp, rfl, rfl⟩
  | exhausted v => exact Or.inr ⟨fun e => by simp, rfl, rfl⟩

/-- Within a call a step is tried before there is an item, at the beginning of the call or after
the cursor before it has been closed at its end. -/
theorem Call.tried {isOpen : Bool} {pending : List EdgeStep} {turn : Turn κ}
    (h : Call isOpen pending turn) :
    AtEvery (fun before e _ => e.tried?.isSome → (∀ a, .polled (some a) ∉ before) ∧
      ((isOpen = false ∧ pending ≠ [] ∧ before = []) ∨
        ∃ l, before = l ++ [.polled none, .closed])) turn.events := by
  induction h with
  | edge v c pending e => exact .cons (fun he => by cases he) .nil
  | fault v pending f => exact .cons (fun he => by cases he) (.cons (fun he => by cases he) .nil)
  | ended _ ih =>
    refine .cons (fun he => by cases he) (.cons (fun he => by cases he) (ih.imp ?_))
    intro before e _ htried he
    obtain ⟨hitem, hplace⟩ := htried he
    refine ⟨by simpa using hitem, Or.inr ?_⟩
    -- The first step tried now comes right after the closing of the cursor that has ended.
    rcases hplace with ⟨-, -, rfl⟩ | ⟨l, rfl⟩
    · exact ⟨[], rfl⟩
    · exact ⟨.polled none :: .closed :: l, rfl⟩
  | opened s _ ih =>
    refine .cons (fun _ => ⟨by simp, Or.inl ⟨rfl, by simp, rfl⟩⟩) (ih.imp ?_)
    intro before e _ htried he
    obtain ⟨hitem, hplace⟩ := htried he
    refine ⟨by simpa using hitem, Or.inr ?_⟩
    rcases hplace with ⟨hopen, -⟩ | ⟨l, rfl⟩
    · cases hopen
    · exact ⟨.opened s :: l, rfl⟩
  | refused v s rest f => exact .cons (fun _ => ⟨by simp, Or.inl ⟨rfl, by simp, rfl⟩⟩) .nil
  | exhausted v => exact .nil

/-! ### All calls -/

/-- What can be done one after the other until an expansion is given up, where a cursor may be
open and steps may be left to try. -/
inductive Course : Bool → List EdgeStep → List StoreEvent → Prop where
  | nothing (pending : List EdgeStep) : Course false pending []
  | dropped (pending : List EdgeStep) : Course true pending [.closed]
  | edge {pending : List EdgeStep} {l : List StoreEvent} (e : Edge) : Course true pending l →
    Course true pending (.polled (some (.ok e)) :: l)
  | fault (pending : List EdgeStep) (f : Fault) :
    Course true pending [.polled (some (.error f)), .closed]
  | ended {pending : List EdgeStep} {l : List StoreEvent} : Course false pending l →
    Course true pending (.polled none :: .closed :: l)
  | opened (s : EdgeStep) {rest : List EdgeStep} {l : List StoreEvent} : Course true rest l →
    Course false (s :: rest) (.opened s :: l)
  | refused (s : EdgeStep) (rest : List EdgeStep) : Course false (s :: rest) [.refused s]

theorem Course.eq_nil {l : List StoreEvent} (h : Course false [] l) : l = [] := by
  cases h
  rfl

theorem Call.course {isOpen : Bool} {pending : List EdgeStep} {turn : Turn κ}
    (h : Call isOpen pending turn) {l : List StoreEvent}
    (hl : Course turn.state.hasOpenCursor turn.state.pending l) :
    Course isOpen pending (turn.events ++ l) := by
  induction h with
  | edge v c pending e => exact .edge e hl
  | fault v pending f =>
    -- A fault leaves no cursor and no step, so nothing can come after it.
    rw [hl.eq_nil]
    exact .fault pending f
  | ended _ ih => exact .ended (ih hl)
  | opened s _ ih => exact .opened s (ih hl)
  | refused v s rest f =>
    rw [hl.eq_nil]
    exact .refused s rest
  | exhausted v => exact hl

theorem stateAfter_succ (src : EdgeSource κ) (x : Expansion κ) (n : Nat) :
    stateAfter src x (n + 1) = stateAfter src (next src x).state n := by
  induction n with
  | zero => rfl
  | succ n ih => exact congrArg (fun x => (next src x).state) ih

theorem call_succ (src : EdgeSource κ) (x : Expansion κ) (n : Nat) :
    call src x (n + 1) = call src (next src x).state n := by
  rw [call, stateAfter_succ, call]

theorem trace_succ (src : EdgeSource κ) (x : Expansion κ) (n : Nat) :
    trace src x (n + 1) = (next src x).events ++ trace src (next src x).state n := by
  have hcalls : (fun m => (call src x (m + 1)).events)
      = fun m => (call src (next src x).state m).events := by
    funext m
    rw [call_succ]
  rw [trace, trace, List.range_succ_eq_map, List.flatMap_cons, List.flatMap_map, stateAfter_succ,
    hcalls, List.append_assoc]
  rfl

theorem course_drop (x : Expansion κ) : Course x.hasOpenCursor x.pending x.drop := by
  rw [hasOpenCursor, drop]
  cases x.cursor with
  | none => exact .nothing _
  | some c => exact .dropped _

/-- The calls together, and giving the expansion up after them, follow a course. -/
theorem course_trace (src : EdgeSource κ) (x : Expansion κ) (n : Nat) :
    Course x.hasOpenCursor x.pending (trace src x n) := by
  induction n generalizing x with
  | zero => exact course_drop x
  | succ n ih =>
    rw [trace_succ]
    exact (call_next src x).course (ih _)

namespace Course

variable {isOpen : Bool} {pending : List EdgeStep} {l : List StoreEvent}

theorem inTurn (h : Course isOpen pending l) :
    ∃ k, l.filter (·.handles) = (if isOpen then [.closed] else [])
      ++ (pending.take k).flatMap fun s => [.opened s, .closed] := by
  induction h with
  | nothing pending => exact ⟨0, rfl⟩
  | dropped pending => exact ⟨0, rfl⟩
  | edge e _ ih => exact ih
  | fault pending f => exact ⟨0, rfl⟩
  | ended _ ih =>
    obtain ⟨k, hk⟩ := ih
    exact ⟨k, congrArg (StoreEvent.closed :: ·) hk⟩
  | opened s _ ih =>
    obtain ⟨k, hk⟩ := ih
    exact ⟨k + 1, congrArg (StoreEvent.opened s :: ·) hk⟩
  | refused s rest => exact ⟨0, rfl⟩

theorem inOrder (h : Course isOpen pending l) : l.filterMap (·.tried?) <+: pending := by
  induction h with
  | nothing pending => exact List.nil_prefix
  | dropped pending => exact List.nil_prefix
  | edge e _ ih => exact ih
  | fault pending f => exact List.nil_prefix
  | ended _ ih => exact ih
  | opened s _ ih => exact List.cons_prefix_cons.mpr ⟨rfl, ih⟩
  | refused s rest => exact List.cons_prefix_cons.mpr ⟨rfl, List.nil_prefix⟩

/-- The first event calls the cursor that was open, and every other call of a cursor comes after
its opening or after an edge. -/
theorem whileReady (h : Course isOpen pending l) :
    AtEvery (fun before e _ => e.polls →
      (isOpen = true ∧ before = []) ∨ ∃ e', before.getLast? = some e' ∧ e'.ready) l := by
  induction h with
  | nothing pending => exact .nil
  | dropped pending => exact .cons (fun he => by cases he) .nil
  | edge e _ ih =>
    refine .cons (fun _ => Or.inl ⟨rfl, rfl⟩) (ih.imp ?_)
    intro before e' _ hready he
    refine Or.inr ?_
    -- What was the first event before comes after the edge now.
    rcases hready he with ⟨-, rfl⟩ | ⟨e'', hlast, hready⟩
    · exact ⟨_, rfl, rfl⟩
    · exact ⟨e'', by simp [List.getLast?_cons, hlast], hready⟩
  | fault pending f =>
    exact .cons (fun _ => Or.inl ⟨rfl, rfl⟩) (.cons (fun he => by cases he) .nil)
  | ended _ ih =>
    refine .cons (fun _ => Or.inl ⟨rfl, rfl⟩) (.cons (fun he => by cases he) (ih.imp ?_))
    intro before e' _ hready he
    rcases hready he with ⟨hopen, -⟩ | ⟨e'', hlast, hready⟩
    · cases hopen
    · exact Or.inr ⟨e'', by simp [List.getLast?_cons, hlast], hready⟩
  | opened s _ ih =>
    refine .cons (fun he => by cases he) (ih.imp ?_)
    intro before e' _ hready he
    refine Or.inr ?_
    rcases hready he with ⟨-, rfl⟩ | ⟨e'', hlast, hready⟩
    · exact ⟨_, rfl, rfl⟩
    · exact ⟨e'', by simp [List.getLast?_cons, hlast], hready⟩
  | refused s rest => exact .cons (fun he => by cases he) .nil

theorem afterFault (h : Course isOpen pending l) :
    AtEvery (fun _ e after => e.faults → ∀ e' ∈ after, e' = .closed) l := by
  induction h with
  | nothing pending => exact .nil
  | dropped pending => exact .cons (fun he => by cases he) .nil
  | edge e _ ih => exact .cons (fun he => by cases he) ih
  | fault pending f =>
    exact .cons (fun _ e' he' => List.mem_singleton.mp he') (.cons (fun he => by cases he) .nil)
  | ended _ ih => exact .cons (fun he => by cases he) (.cons (fun he => by cases he) ih)
  | opened s _ ih => exact .cons (fun he => by cases he) ih
  | refused s rest => exact .cons (fun _ e' he' => by simp at he') .nil

end Course

/-! ### The end of an expansion -/

/-- Nothing is left to do. -/
def Idle (x : Expansion κ) : Prop := x.hasOpenCursor = false ∧ x.pending = []

theorem next_of_idle (src : EdgeSource κ) {x : Expansion κ} (h : x.Idle) :
    (next src x).events = [] ∧ (next src x).state.Idle := by
  obtain ⟨hopen, hpending⟩ := h
  have hcall := call_next src x
  rw [hopen, hpending] at hcall
  generalize next src x = turn at hcall ⊢
  cases hcall with
  | exhausted v => exact ⟨rfl, rfl, rfl⟩

/-- A call that gives no edge leaves nothing to do. -/
theorem idle_of_no_edge (src : EdgeSource κ) (x : Expansion κ) (m : Nat)
    (h : ∀ e, (call src x m).item ≠ some (.ok e)) : (stateAfter src x (m + 1)).Idle := by
  rcases (call_next src (stateAfter src x m)).outcome with ⟨⟨e, he⟩, -⟩ | ⟨-, hidle⟩
  · exact absurd he (h e)
  · exact hidle

theorem idle_of_le (src : EdgeSource κ) (x : Expansion κ) {m k : Nat} (hmk : m ≤ k)
    (h : (stateAfter src x m).Idle) : (stateAfter src x k).Idle := by
  induction hmk with
  | refl => exact h
  | step _ ih => exact (next_of_idle src ih).2

/-- After the first call either a cursor is open or nothing is left to do. -/
theorem idle_of_not_open (src : EdgeSource κ) (x : Expansion κ) (m : Nat)
    (h : (stateAfter src x (m + 1)).hasOpenCursor = false) : (stateAfter src x (m + 1)).Idle := by
  rcases (call_next src (stateAfter src x m)).outcome with ⟨-, hopen⟩ | ⟨-, hidle⟩
  · rw [stateAfter, hopen] at h
    cases h
  · exact hidle

theorem drop_of_idle {x : Expansion κ} (h : x.Idle) : x.drop = [] := by
  obtain ⟨hopen, -⟩ := h
  rw [hasOpenCursor] at hopen
  rw [drop]
  cases hc : x.cursor with
  | none => rfl
  | some c =>
    rw [hc] at hopen
    cases hopen

/-- With nothing left to do nothing is asked of the store, however often the expansion is called. -/
theorem trace_of_idle (src : EdgeSource κ) {x : Expansion κ} (h : x.Idle) (n : Nat) :
    trace src x n = [] := by
  have hidle : ∀ m, (stateAfter src x m).Idle := fun m => idle_of_le src x (Nat.zero_le m) h
  have hcalls : ∀ m ∈ List.range n, (call src x m).events = [] :=
    fun m _ => (next_of_idle src (hidle m)).1
  rw [trace, List.flatMap_eq_nil_iff.mpr hcalls, drop_of_idle (hidle n), List.nil_append]

/-- **An expansion handles its cursors well**, over every source and however often it is called
before it is given up. -/
theorem expand_disciplined (src : EdgeSource κ) (i : Itinerary) (p : Path) (n : Nat) :
    Disciplined src (i.stepsAt p.length) (i.expand p) n := by
  have hcourse : Course false (i.stepsAt p.length) (trace src (i.expand p) n) :=
    course_trace src (i.expand p) n
  refine ⟨hcourse.inTurn, hcourse.inOrder, fun m _ => ?_, ?_, hcourse.afterFault, ?_, ?_⟩
  · refine (call_next src (stateAfter src (i.expand p) m)).tried.imp ?_
    intro before e _ htried he
    obtain ⟨hitem, hplace⟩ := htried he
    refine ⟨hitem, hplace.imp_left ?_⟩
    rintro ⟨hopen, hpending, hbefore⟩
    refine ⟨?_, hbefore⟩
    -- A later call that begins without a cursor has no step left to try.
    cases m with
    | zero => rfl
    | succ m => exact absurd (idle_of_not_open src _ m hopen).2 hpending
  · refine hcourse.whileReady.imp ?_
    intro before e _ hready he
    rcases hready he with ⟨hopen, -⟩ | hready
    · cases hopen
    · exact hready
  · intro m hm hlast
    have hidle := idle_of_no_edge src _ m hlast
    exact ⟨fun k hmk _ => (next_of_idle src (idle_of_le src _ hmk hidle)).1,
      drop_of_idle (idle_of_le src _ hm hidle)⟩
  · intro m _
    rcases (call_next src (stateAfter src (i.expand p) m)).outcome with
      ⟨hedge, hopen⟩ | ⟨hnone, hopen, -⟩
    · exact ⟨fun _ => hedge, fun _ => hopen⟩
    · refine ⟨fun h => ?_, fun ⟨e, he⟩ => absurd he (hnone e)⟩
      rw [call, hopen] at h
      cases h

end Expansion

end WalkFilter
