/-
Expansions: the edges of several steps, one cursor at a time.

An expansion tries its steps in order.  It opens the cursor of a step when the
one before is at its end, and it is over after the first fault.  Each call
also tells what was done to the store, in order.

Main statement:
* `drain_eq` — drained over a finite source, an expansion gives the edges of
  its steps one step after the other, or the first fault among them.
-/
import WalkFilter.Source.Basic

namespace WalkFilter

/-- What an expansion does to its store. -/
inductive StoreEvent where
  /-- a cursor was opened -/
  | opened (s : EdgeStep)
  /-- a cursor was refused -/
  | refused (s : EdgeStep)
  /-- the open cursor was called and gave this answer -/
  | polled (item : Item)
  /-- the open cursor was given up -/
  | closed

/-- The state of an expansion between two calls. -/
structure Expansion (κ : Type) where
  vertex : VertexId
  /-- the open cursor -/
  cursor : Option κ
  /-- the steps not yet tried -/
  pending : List EdgeStep

/-- What one call of an expansion gives. -/
structure Turn (κ : Type) where
  item : Item
  events : List StoreEvent
  state : Expansion κ

namespace Expansion

variable {κ : Type}

/-- The expansion of a list of steps at a vertex.  Nothing is asked of the store yet. -/
def start (v : VertexId) (steps : List EdgeStep) : Expansion κ := ⟨v, none, steps⟩

/-- An expansion that has nothing left to do. -/
def finished (v : VertexId) : Expansion κ := ⟨v, none, []⟩

/-- Has a cursor been left open? -/
def hasOpenCursor (x : Expansion κ) : Bool := x.cursor.isSome

/-- Call the open cursor `c`; at its end give it up and go on with `onward`. -/
def poll (src : EdgeSource κ) (v : VertexId) (c : κ) (pending : List EdgeStep)
    (onward : Unit → Turn κ) : Turn κ :=
  match src.next c with
  | (some (.ok e), c') => ⟨some (.ok e), [.polled (some (.ok e))], ⟨v, some c', pending⟩⟩
  | (some (.error f), _) =>
    ⟨some (.error f), [.polled (some (.error f)), .closed], finished v⟩
  | (none, _) =>
    let turn := onward ()
    { turn with events := .polled none :: .closed :: turn.events }

/-- Try the steps in order until one of their cursors has an answer. -/
def advance (src : EdgeSource κ) (v : VertexId) : List EdgeStep → Turn κ
  | [] => ⟨none, [], finished v⟩
  | s :: rest =>
    match src.openCursor v s with
    | .error f => ⟨some (.error f), [.refused s], finished v⟩
    | .ok c =>
      let turn := poll src v c rest fun _ => advance src v rest
      { turn with events := .opened s :: turn.events }

/-- The next edge, the fault that ends the expansion, or the end. -/
def next (src : EdgeSource κ) (x : Expansion κ) : Turn κ :=
  match x.cursor with
  | some c => poll src x.vertex c x.pending fun _ => advance src x.vertex x.pending
  | none => advance src x.vertex x.pending

/-- Giving the expansion up closes the cursor that is still open. -/
def drop (x : Expansion κ) : List StoreEvent :=
  match x.cursor with
  | some _ => [.closed]
  | none => []

/-- The expansion has less to do: fewer steps, or as many and a cursor nearer to its end. -/
def Shrinks (src : FiniteSource κ) (x' x : Expansion κ) : Prop :=
  Prod.Lex (· < ·) (· < ·)
    (x'.pending.length, (x'.cursor.map src.remaining).getD 0)
    (x.pending.length, (x.cursor.map src.remaining).getD 0)

theorem length_pending_poll (src : EdgeSource κ) (v : VertexId) (c : κ) (pending : List EdgeStep)
    (onward : Unit → Turn κ) (h : (onward ()).state.pending.length ≤ pending.length) :
    (poll src v c pending onward).state.pending.length ≤ pending.length := by
  unfold poll
  split <;> simp_all [finished]

theorem length_pending_advance (src : EdgeSource κ) (v : VertexId) (steps : List EdgeStep) :
    (advance src v steps).state.pending.length ≤ steps.length - 1 := by
  induction steps with
  | nil => simp [advance, finished]
  | cons s rest ih =>
    simp only [advance]
    cases src.openCursor v s with
    | error f => simp [finished]
    | ok c =>
      have hrest : (advance src v rest).state.pending.length ≤ rest.length := by omega
      simpa using length_pending_poll src v c rest (fun _ => advance src v rest) hrest

/-- After an edge an expansion over a finite source has less to do than before. -/
theorem shrinks_next (src : FiniteSource κ) {x : Expansion κ} {e : Edge}
    (h : (next src.toEdgeSource x).item = some (.ok e)) :
    Shrinks src (next src.toEdgeSource x).state x := by
  -- Opening the cursor of a step uses the step up.
  have hadvance : ∀ steps, (advance src.toEdgeSource x.vertex steps).item = some (.ok e) →
      (advance src.toEdgeSource x.vertex steps).state.pending.length < steps.length := by
    intro steps hs
    cases steps with
    | nil => simp [advance] at hs
    | cons s rest =>
      have := length_pending_advance src.toEdgeSource x.vertex (s :: rest)
      simp at this ⊢
      omega
  unfold next at h ⊢
  cases hc : x.cursor with
  | none =>
    simp only [hc] at h ⊢
    exact Prod.Lex.left _ _ (hadvance _ h)
  | some c =>
    simp only [hc] at h ⊢
    unfold poll at h ⊢
    split
    · next e' c' hn =>
      -- The open cursor has answered: as many steps, and a cursor nearer to its end.
      refine Prod.Lex.right _ ?_
      simpa [hc] using src.remaining_lt hn
    · next f c' hn => simp [hn] at h
    · next c' hn =>
      simp only [hn] at h
      exact Prod.Lex.left _ _ (hadvance _ h)

/-- All edges of an expansion over a finite source, or the fault that ends it. -/
def drain (src : FiniteSource κ) (x : Expansion κ) : Except Fault (List Edge) :=
  match _h : (next src.toEdgeSource x).item with
  | none => .ok []
  | some (.error f) => .error f
  | some (.ok e) => (drain src (next src.toEdgeSource x).state).map (e :: ·)
termination_by (x.pending.length, (x.cursor.map src.remaining).getD 0)
decreasing_by exact shrinks_next src _h

end Expansion

namespace FiniteSource

variable {κ : Type}

/-- All edges that a cursor has left, or its first fault. -/
def collect (src : FiniteSource κ) (c : κ) : Except Fault (List Edge) :=
  match _h : src.next c with
  | (none, _) => .ok []
  | (some (.error f), _) => .error f
  | (some (.ok e), c') => (src.collect c').map (e :: ·)
termination_by src.remaining c
decreasing_by exact src.remaining_lt _h

theorem collect_unfold (src : FiniteSource κ) (c : κ) :
    src.collect c = match src.next c with
      | (none, _) => .ok []
      | (some (.error f), _) => .error f
      | (some (.ok e), c') => (src.collect c').map (e :: ·) := by
  rw [collect]
  split <;> next h => simp [h]

/-- The edges of each step after those of the steps before it, or the first fault. -/
def edgesOf (src : FiniteSource κ) (v : VertexId) : List EdgeStep → Except Fault (List Edge)
  | [] => .ok []
  | s :: rest =>
    (src.openCursor v s).bind fun c =>
      (src.collect c).bind fun edges => (src.edgesOf v rest).map (edges ++ ·)

end FiniteSource

namespace Expansion

variable {κ : Type}

theorem drain_unfold (src : FiniteSource κ) (x : Expansion κ) :
    drain src x = match (next src.toEdgeSource x).item with
      | none => .ok []
      | some (.error f) => .error f
      | some (.ok e) => (drain src (next src.toEdgeSource x).state).map (e :: ·) := by
  rw [drain]
  split <;> next h => simp [h]

/-- Draining looks at the answer of a call and the state after it only. -/
theorem drain_congr (src : FiniteSource κ) {x y : Expansion κ}
    (hitem : (next src.toEdgeSource x).item = (next src.toEdgeSource y).item)
    (hstate : (next src.toEdgeSource x).state = (next src.toEdgeSource y).state) :
    drain src x = drain src y := by
  rw [drain_unfold src x, drain_unfold src y, hitem, hstate]

theorem drain_nil (src : FiniteSource κ) (v : VertexId) :
    drain src ⟨v, none, []⟩ = .ok [] := by
  simp [drain_unfold, next, advance]

theorem drain_pending (src : FiniteSource κ) (v : VertexId) (s : EdgeStep)
    (rest : List EdgeStep) :
    drain src ⟨v, none, s :: rest⟩
      = (src.openCursor v s).bind fun c => drain src ⟨v, some c, rest⟩ := by
  cases h : src.openCursor v s with
  | error f => simp [drain_unfold, next, advance, h, Except.bind]
  | ok c => exact drain_congr src (by simp [next, advance, h]) (by simp [next, advance, h])

theorem drain_cursor (src : FiniteSource κ) (v : VertexId) (c : κ) (pending : List EdgeStep) :
    drain src ⟨v, some c, pending⟩
      = (src.collect c).bind fun edges =>
          (drain src ⟨v, none, pending⟩).map (edges ++ ·) := by
  induction hn : src.remaining c using Nat.strongRecOn generalizing c with
  | ind n ih =>
  rw [src.collect_unfold]
  match h : src.next c with
  | (none, c') =>
    -- At the end of the cursor the pending steps are left.
    have hmap : ∀ r : Except Fault (List Edge), r.map ([] ++ ·) = r := by
      intro r; cases r <;> rfl
    simp only [Except.bind, hmap]
    exact drain_congr src (by simp [next, poll, h]) (by simp [next, poll, h])
  | (some (.error f), c') => simp [drain_unfold, next, poll, h, Except.bind]
  | (some (.ok e), c') =>
    -- After an edge the rest is drained from the next state of the cursor.
    have hstep : drain src ⟨v, some c, pending⟩
        = (drain src ⟨v, some c', pending⟩).map (e :: ·) := by
      rw [drain_unfold]
      simp [next, poll, h]
    rw [hstep, ih _ (hn ▸ src.remaining_lt h) c' rfl]
    dsimp only
    cases src.collect c' with
    | error f => rfl
    | ok edges => cases drain src ⟨v, none, pending⟩ <;> rfl

/-- Drained over a finite source, an expansion gives the edges of its steps one step after the
other, or the first fault among them. -/
theorem drain_eq (src : FiniteSource κ) (v : VertexId) (steps : List EdgeStep) :
    drain src (start v steps) = src.edgesOf v steps := by
  induction steps with
  | nil => exact drain_nil src v
  | cons s rest ih =>
    rw [start, drain_pending, FiniteSource.edgesOf]
    congr 1
    funext c
    rw [drain_cursor]
    rw [start] at ih
    rw [ih]

end Expansion

end WalkFilter
