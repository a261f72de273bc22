/-
Graphs built by runs of calls.

A run starts from the graph without vertices and adds vertices and edges; a
call that names a missing end changes nothing.  Two invariants hold of every
graph that a run reaches:

* **`closed_build`** — both ends of each edge are vertices, and each edge that
  is listed for a vertex is there, however long the run;
* **`indexed_build`** — while the numbers last, edge `i` has the number `i`,
  and what is listed for a vertex are the edges that leave it and those that
  enter it, in the order in which they were added.
-/
import Mathlib
import WalkFilter.Graph.Basic

namespace WalkFilter

theorem VertexId.toNat_inj {v w : VertexId} : v.val.toNat = w.val.toNat ↔ v = w := by
  constructor
  · intro h
    cases v
    cases w
    exact congrArg _ (UInt64.toNat_inj.mp h)
  · rintro rfl
    rfl

namespace Graph

/-- A call that changes a graph. -/
inductive Change where
  | vertex (tags : List String)
  | edge (source target : VertexId) (edgeType : String)
deriving DecidableEq

namespace Change

def isVertex : Change → Bool
  | vertex _ => true
  | edge _ _ _ => false

def isEdge : Change → Bool
  | vertex _ => false
  | edge _ _ _ => true

/-- The graph after a call.  A refused edge leaves it as it was. -/
def apply (g : Graph) : Change → Graph
  | vertex tags => g.addVertex tags
  | edge source target edgeType =>
    match g.addEdge source target edgeType with
    | .ok g' => g'
    | .error _ => g

end Change

/-- The graph that a run of calls builds. -/
def build (changes : List Change) : Graph := changes.foldl Change.apply empty

/-! ### What one call does -/

section Put

variable {α : Type} {l : Array α} {a : α}

theorem mem_put {i : Nat} {b : α} (h : b ∈ put l i a) : b = a ∨ b ∈ l := by
  unfold put at h
  split at h
  · rcases Array.mem_or_eq_of_mem_set h with h | h
    · exact Or.inr h
    · exact Or.inl h
  · rcases Array.mem_push.mp h with h | h
    · exact Or.inr h
    · exact Or.inl h

theorem getElem?_put {i j : Nat} (hi : i ≤ l.size) :
    (put l i a)[j]? = if j = i then some a else l[j]? := by
  unfold put
  split
  · next h =>
    rw [Array.getElem?_set]
    by_cases hj : i = j
    · rw [if_pos hj, if_pos hj.symm]
    · rw [if_neg hj, if_neg (Ne.symm hj)]
  · next h =>
    rw [Array.getElem?_push, show i = l.size by omega]

theorem mem_of_mem_ite_push {c : Prop} [Decidable c] {b : α}
    (h : b ∈ if c then l.push a else l) : b = a ∨ b ∈ l := by
  split at h
  · exact (Array.mem_push.mp h).symm
  · exact Or.inr h

end Put

theorem toNat_number (size : Nat) : (number size).toNat = min size (UInt64.size - 1) := by
  rw [number, UInt64.toNat_ofNat', Nat.mod_eq_of_lt]
  simp only [UInt64.size]
  omega

/-- The next vertex is the one after the last, while the numbers last. -/
theorem toNat_nextVertex_le (g : Graph) : g.nextVertex.val.toNat ≤ g.nodes.size := by
  rw [nextVertex, toNat_number]
  exact min_le_left _ _

theorem toNat_nextEdge_le (g : Graph) : g.nextEdge.val.toNat ≤ g.edges.size := by
  rw [nextEdge, toNat_number]
  exact min_le_left _ _

theorem node?_addVertex (g : Graph) (tags : List String) (v : VertexId) :
    (g.addVertex tags).node? v
      = if v = g.nextVertex then
          some { (g.node? v).getD ⟨.empty, #[], #[]⟩ with tags := .ofList tags }
        else g.node? v := by
  rw [node?, addVertex, getElem?_put g.toNat_nextVertex_le]
  by_cases hv : v = g.nextVertex
  · subst hv
    rw [if_pos rfl, if_pos rfl]
    cases g.node? g.nextVertex <;> rfl
  · rw [if_neg (fun h => hv (VertexId.toNat_inj.mp h)), if_neg hv]
    rfl

theorem edges_addVertex (g : Graph) (tags : List String) :
    (g.addVertex tags).edges = g.edges := rfl

/-- What an accepted edge does to a graph: it is put under the next number, and it is listed
for its two ends and for no other vertex. -/
theorem addEdge_eq_ok {g g' : Graph} {source target : VertexId} {edgeType : String}
    (h : g.addEdge source target edgeType = .ok g') :
    (g.node? source).isSome ∧ (g.node? target).isSome ∧
      g'.edges = put g.edges g.nextEdge.val.toNat ⟨g.nextEdge, edgeType, source, target⟩ ∧
      g'.edgeTypes = g.edgeTypes.insert edgeType ∧
      ∀ v, g'.node? v = (g.node? v).map fun n =>
        { n with
          leaving := if v = source then n.leaving.push g.nextEdge else n.leaving
          entering := if v = target then n.entering.push g.nextEdge else n.entering } := by
  rw [addEdge] at h
  split at h
  · cases h
  · next hs =>
    split at h
    · cases h
    · next ht =>
      cases h
      refine ⟨by simpa [Option.isSome_iff_ne_none] using hs,
        by simpa [Option.isSome_iff_ne_none] using ht, rfl, rfl, fun v => ?_⟩
      have hsv : source.val.toNat = v.val.toNat ↔ v = source := by
        rw [VertexId.toNat_inj, eq_comm]
      have htv : target.val.toNat = v.val.toNat ↔ v = target := by
        rw [VertexId.toNat_inj, eq_comm]
      simp only [node?, Array.getElem?_modify, hsv, htv]
      cases g.nodes[v.val.toNat]? with
      | none => simp
      | some n => split <;> split <;> simp [*]

/-! ### Every run -/

/-- Nothing is missing: the ends of the edges are vertices, and the edges that are listed for
the vertices are there. -/
structure Closed (g : Graph) : Prop where
  ends : ∀ e ∈ g.edges, (g.node? e.source).isSome ∧ (g.node? e.target).isSome
  listed : ∀ v n, g.node? v = some n →
    ∀ id, id ∈ n.leaving ∨ id ∈ n.entering → (g.edge? id).isSome

theorem closed_empty : empty.Closed where
  ends e he := absurd he (by simp [empty])
  listed v n h := absurd h (by simp [node?, empty])

theorem isSome_node?_addVertex {g : Graph} {v : VertexId} (tags : List String)
    (h : (g.node? v).isSome) : ((g.addVertex tags).node? v).isSome := by
  rw [node?_addVertex]
  split
  · rfl
  · exact h

theorem closed_addVertex {g : Graph} (hg : g.Closed) (tags : List String) :
    (g.addVertex tags).Closed where
  ends e he :=
    have hends := hg.ends e (by rwa [edges_addVertex] at he)
    ⟨isSome_node?_addVertex tags hends.1, isSome_node?_addVertex tags hends.2⟩
  listed v n h id hid := by
    rw [edge?, edges_addVertex]
    rw [node?_addVertex] at h
    split at h
    · -- The vertex under the next number lists what was listed there before.
      cases hn : g.node? v with
      | none =>
        rw [hn, Option.getD_none] at h
        cases h
        simp at hid
      | some m =>
        rw [hn, Option.getD_some] at h
        cases h
        exact hg.listed v m hn id hid
    · exact hg.listed v n h id hid

theorem isSome_edge?_addEdge {g g' : Graph} {source target : VertexId} {edgeType : String}
    (h : g.addEdge source target edgeType = .ok g') {id : EdgeId}
    (hid : id = g.nextEdge ∨ (g.edge? id).isSome) : (g'.edge? id).isSome := by
  obtain ⟨-, -, hedges, -, -⟩ := addEdge_eq_ok h
  rw [edge?, hedges, getElem?_put g.toNat_nextEdge_le]
  split
  · rfl
  · next hne =>
    rcases hid with rfl | hid
    · exact absurd rfl hne
    · exact hid

theorem closed_addEdge {g g' : Graph} (hg : g.Closed) {source target : VertexId}
    {edgeType : String} (h : g.addEdge source target edgeType = .ok g') : g'.Closed where
  ends e he := by
    obtain ⟨hs, ht, hedges, -, hnode⟩ := addEdge_eq_ok h
    rw [hnode, hnode, Option.isSome_map, Option.isSome_map]
    rw [hedges] at he
    rcases mem_put he with rfl | he
    · exact ⟨hs, ht⟩
    · exact hg.ends e he
  listed v n hn id hid := by
    obtain ⟨-, -, -, -, hnode⟩ := addEdge_eq_ok h
    rw [hnode] at hn
    obtain ⟨m, hm, rfl⟩ := Option.map_eq_some_iff.mp hn
    refine isSome_edge?_addEdge h ?_
    -- What is listed now is the new edge or was listed before.
    rcases hid with hid | hid
    · exact (mem_of_mem_ite_push hid).imp_right fun hid => hg.listed v m hm id (Or.inl hid)
    · exact (mem_of_mem_ite_push hid).imp_right fun hid => hg.listed v m hm id (Or.inr hid)

theorem closed_apply {g : Graph} (hg : g.Closed) (c : Change) : (c.apply g).Closed := by
  cases c with
  | vertex tags => exact closed_addVertex hg tags
  | edge source target edgeType =>
    rw [Change.apply]
    split
    · next h => exact closed_addEdge hg h
    · exact hg

/-- **In every graph that a run of calls builds nothing is missing.** -/
theorem closed_build (changes : List Change) : (build changes).Closed := by
  have hrun : ∀ g : Graph, g.Closed → (changes.foldl Change.apply g).Closed := by
    induction changes with
    | nil => exact fun g hg => hg
    | cons c rest ih => exact fun g hg => ih _ (closed_apply hg c)
  exact hrun empty closed_empty

/-! ### Runs that give every number once -/

/-- The edges are numbered in order, and each vertex lists the edges that leave it and those
that enter it, in that order. -/
structure Indexed (g : Graph) : Prop extends g.Closed where
  number : ∀ (i : Nat) (e : Edge), g.edges[i]? = some e → e.id.val.toNat = i
  leaving : ∀ v n, g.node? v = some n →
    n.leaving.toList = (g.edges.toList.filter (·.source = v)).map (·.id)
  entering : ∀ v n, g.node? v = some n →
    n.entering.toList = (g.edges.toList.filter (·.target = v)).map (·.id)
  known : ∀ e ∈ g.edges, e.edgeType ∈ g.edgeTypes

theorem indexed_empty : empty.Indexed where
  toClosed := closed_empty
  number i e h := absurd h (by simp [empty])
  leaving v n h := absurd h (by simp [node?, empty])
  entering v n h := absurd h (by simp [node?, empty])
  known e he := absurd he (by simp [empty])

theorem toNat_nextVertex {g : Graph} (h : g.nodes.size < 2 ^ 64) :
    g.nextVertex.val.toNat = g.nodes.size := by
  rw [nextVertex, toNat_number]
  simp only [UInt64.size]
  omega

theorem toNat_nextEdge {g : Graph} (h : g.edges.size < 2 ^ 64) :
    g.nextEdge.val.toNat = g.edges.size := by
  rw [nextEdge, toNat_number]
  simp only [UInt64.size]
  omega

theorem node?_nextVertex {g : Graph} (h : g.nodes.size < 2 ^ 64) :
    g.node? g.nextVertex = none := by
  rw [node?, toNat_nextVertex h, Array.getElem?_eq_none_iff]

theorem put_size {α : Type} (l : Array α) (a : α) : put l l.size a = l.push a :=
  dif_neg (Nat.lt_irrefl _)

/-- A number that is not taken has no edges, since every edge ends in vertices that are there. -/
theorem filter_eq_nil_of_node?_eq_none {g : Graph} (hg : g.Closed) {v : VertexId}
    (h : g.node? v = none) :
    g.edges.toList.filter (·.source = v) = [] ∧ g.edges.toList.filter (·.target = v) = [] := by
  refine ⟨List.filter_eq_nil_iff.mpr fun e he hv => ?_,
    List.filter_eq_nil_iff.mpr fun e he hv => ?_⟩
  · have hends := (hg.ends e (Array.mem_toList_iff.mp he)).1
    rw [of_decide_eq_true hv, h] at hends
    cases hends
  · have hends := (hg.ends e (Array.mem_toList_iff.mp he)).2
    rw [of_decide_eq_true hv, h] at hends
    cases hends

theorem indexed_addVertex {g : Graph} (hg : g.Indexed) (h : g.nodes.size < 2 ^ 64)
    (tags : List String) : (g.addVertex tags).Indexed := by
  have hnew := filter_eq_nil_of_node?_eq_none hg.toClosed (node?_nextVertex h)
  -- What a vertex lists is what it listed before, and nothing if it is new.
  have hnode : ∀ v n, (g.addVertex tags).node? v = some n →
      (v = g.nextVertex ∧ n.leaving = #[] ∧ n.entering = #[]) ∨ g.node? v = some n := by
    intro v n hn
    rw [node?_addVertex] at hn
    split at hn
    · next hv =>
      rw [hv, node?_nextVertex h, Option.getD_none] at hn
      cases hn
      exact Or.inl ⟨hv, rfl, rfl⟩
    · exact Or.inr hn
  refine ⟨closed_addVertex hg.toClosed tags, hg.number, fun v n hn => ?_, fun v n hn => ?_,
    hg.known⟩
  · rcases hnode v n hn with ⟨rfl, hleaving, -⟩ | hn
    · rw [hleaving, edges_addVertex, hnew.1]
      rfl
    · exact hg.leaving v n hn
  · rcases hnode v n hn with ⟨rfl, -, hentering⟩ | hn
    · rw [hentering, edges_addVertex, hnew.2]
      rfl
    · exact hg.entering v n hn

/-- A list of the edges with one end at a vertex is kept up with by listing a new edge there. -/
theorem toList_push_ids (f : Edge → VertexId) {ids : Array EdgeId} {edges : Array Edge}
    {v : VertexId} (h : ids.toList = (edges.toList.filter (f · = v)).map (·.id)) (e : Edge) :
    (if v = f e then ids.push e.id else ids).toList
      = ((edges.push e).toList.filter (f · = v)).map (·.id) := by
  rw [Array.toList_push, List.filter_append, List.map_append, ← h]
  by_cases hv : v = f e
  · simp [hv]
  · simp [hv, Ne.symm hv]

theorem indexed_addEdge {g g' : Graph} (hg : g.Indexed) (hsize : g.edges.size < 2 ^ 64)
    {source target : VertexId} {edgeType : String}
    (h : g.addEdge source target edgeType = .ok g') : g'.Indexed := by
  obtain ⟨-, -, hedges, htypes, hnode⟩ := addEdge_eq_ok h
  rw [toNat_nextEdge hsize, put_size] at hedges
  refine ⟨closed_addEdge hg.toClosed h, ?_, ?_, ?_, ?_⟩
  · intro i e he
    rw [hedges, Array.getElem?_push] at he
    split at he
    · next hi =>
      cases he
      rw [toNat_nextEdge hsize, hi]
    · exact hg.number i e he
  · intro v n hn
    rw [hnode] at hn
    obtain ⟨m, hm, rfl⟩ := Option.map_eq_some_iff.mp hn
    rw [hedges]
    exact toList_push_ids (·.source) (hg.leaving v m hm) ⟨g.nextEdge, edgeType, source, target⟩
  · intro v n hn
    rw [hnode] at hn
    obtain ⟨m, hm, rfl⟩ := Option.map_eq_some_iff.mp hn
    rw [hedges]
    exact toList_push_ids (·.target) (hg.entering v m hm) ⟨g.nextEdge, edgeType, source, target⟩
  · intro e he
    rw [htypes, SortedSet.mem_insert]
    rw [hedges] at he
    rcases Array.mem_push.mp he with he | rfl
    · exact Or.inr (hg.known e he)
    · exact Or.inl rfl

theorem size_put {α : Type} (l : Array α) (i : Nat) (a : α) :
    (put l i a).size = if i < l.size then l.size else l.size + 1 := by
  unfold put
  split <;> simp

theorem size_put_le {α : Type} (l : Array α) (i : Nat) (a : α) :
    (put l i a).size ≤ l.size + 1 := by
  rw [size_put]
  split <;> omega

/-- Only a vertex that is added takes a number of a vertex. -/
theorem size_nodes_apply_le (g : Graph) (c : Change) :
    (c.apply g).nodes.size ≤ g.nodes.size + if c.isVertex then 1 else 0 := by
  cases c with
  | vertex tags => exact size_put_le _ _ _
  | edge source target edgeType =>
    rw [Change.apply, addEdge]
    split
    · next h =>
      split at h
      · cases h
      · split at h
        · cases h
        · cases h
          simp
    · exact Nat.le_add_right _ _

/-- Only an edge that is added takes a number of an edge. -/
theorem size_edges_apply_le (g : Graph) (c : Change) :
    (c.apply g).edges.size ≤ g.edges.size + if c.isEdge then 1 else 0 := by
  cases c with
  | vertex tags => exact Nat.le_add_right _ _
  | edge source target edgeType =>
    rw [Change.apply]
    split
    · next h =>
      obtain ⟨-, -, hedges, -, -⟩ := addEdge_eq_ok h
      rw [hedges]
      exact size_put_le _ _ _
    · exact Nat.le_add_right _ _

theorem indexed_apply {g : Graph} (hg : g.Indexed) (c : Change)
    (hv : c.isVertex → g.nodes.size < 2 ^ 64) (he : c.isEdge → g.edges.size < 2 ^ 64) :
    (c.apply g).Indexed := by
  cases c with
  | vertex tags => exact indexed_addVertex hg (hv rfl) tags
  | edge source target edgeType =>
    rw [Change.apply]
    split
    · next h => exact indexed_addEdge hg (he rfl) h
    · exact hg

/-- **A run of at most `2 ^ 64` calls of either kind numbers and lists the edges in order.** -/
theorem indexed_build {changes : List Change}
    (hvertices : changes.countP Change.isVertex ≤ 2 ^ 64)
    (hedges : changes.countP Change.isEdge ≤ 2 ^ 64) : (build changes).Indexed := by
  -- What a graph has of either kind and what is still to come stay within the numbers.
  have hrun : ∀ g : Graph, g.Indexed →
      g.nodes.size + changes.countP Change.isVertex ≤ 2 ^ 64 →
      g.edges.size + changes.countP Change.isEdge ≤ 2 ^ 64 →
      (changes.foldl Change.apply g).Indexed := by
    clear hvertices hedges
    induction changes with
    | nil => exact fun g hg _ _ => hg
    | cons c rest ih =>
      intro g hg hv he
      rw [List.countP_cons] at hv he
      have hnodes := size_nodes_apply_le g c
      have hedges := size_edges_apply_le g c
      refine ih _ (indexed_apply hg c (fun h => ?_) (fun h => ?_)) (by omega) (by omega)
      · rw [if_pos h] at hv
        omega
      · rw [if_pos h] at he
        omega
  exact hrun empty indexed_empty (by simpa [empty] using hvertices) (by simpa [empty] using hedges)

end Graph

end WalkFilter
