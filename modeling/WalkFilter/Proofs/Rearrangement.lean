/-
Trees of filters put in another shape.

A tree decides as its leaves do, all of them together, so nothing depends on
how the leaves are put under nodes:

* **`decide_eq_foldr_leaves`** — the decision of a tree is the meet of those of
  its leaves;
* **`rearranged_iff`** — a tree can be put in the shape of another one just if
  they have the same leaves, whatever their order and number;
* **`decide_rearranged`** — a tree includes or goes on where every leaf does,
  and so does every other shape of it.
-/
import Mathlib
import WalkFilter.Evaluator

namespace WalkFilter

namespace Evaluator

mutual

/-- The filters of a tree that are no nodes, from left to right. -/
def leaves : Evaluator → List Evaluator
  | all members => leavesAll members
  | leaf => [leaf]

/-- The leaves of all members. -/
def leavesAll : List Evaluator → List Evaluator
  | [] => []
  | member :: rest => member.leaves ++ leavesAll rest

end

/-- One tree is another shape of the other: members of nodes are permuted or repeated, some of
them are put under a node of their own, or a node above a single member is left out, anywhere in
the tree and in either direction. -/
inductive Rearranged : Evaluator → Evaluator → Prop
  | permute {members members' : List Evaluator} (h : members.Perm members') :
    Rearranged (all members) (all members')
  | duplicate {member : Evaluator} {members : List Evaluator} (h : member ∈ members) :
    Rearranged (all members) (all (member :: members))
  | regroup (before group after : List Evaluator) :
    Rearranged (all (before ++ (group ++ after))) (all (before ++ all group :: after))
  | collapse (members : List Evaluator) : Rearranged (all members) (allOf members)
  | within (before after : List Evaluator) {e e' : Evaluator} (h : Rearranged e e') :
    Rearranged (all (before ++ e :: after)) (all (before ++ e' :: after))
  | refl (e : Evaluator) : Rearranged e e
  | symm {e e' : Evaluator} (h : Rearranged e e') : Rearranged e' e
  | trans {e e' e'' : Evaluator} (h : Rearranged e e') (h' : Rearranged e' e'') : Rearranged e e''

/-! ### The leaves decide -/

theorem leavesAll_eq (members : List Evaluator) : leavesAll members = members.flatMap leaves := by
  induction members with
  | nil => rfl
  | cons member rest ih => rw [leavesAll, ih, List.flatMap_cons]

theorem leaves_all (members : List Evaluator) :
    (all members).leaves = members.flatMap leaves := by
  rw [leaves, leavesAll_eq]

theorem leaves_allOf (members : List Evaluator) : (allOf members).leaves = (all members).leaves := by
  match members with
  | [] => rfl
  | [member] => rw [leaves_all, List.flatMap_singleton, allOf]
  | _ :: _ :: _ => rfl

mutual

/-- The decision of a tree is the meet of those of its leaves. -/
theorem decide_eq_foldr_leaves (depth : Nat) (v : Vertex) : ∀ e : Evaluator,
    e.decide depth v = (e.leaves.map (decide depth v)).foldr Decision.and .includeAndContinue
  | all members => by rw [decide, leaves, decideAll_eq_foldr_leaves depth v members]
  | tagSequence s => (Decision.and_includeAndContinue _).symm
  | whitelist l => (Decision.and_includeAndContinue _).symm
  | blacklist l => (Decision.and_includeAndContinue _).symm
  | endAndTerminator l => (Decision.and_includeAndContinue _).symm

theorem decideAll_eq_foldr_leaves (depth : Nat) (v : Vertex) : ∀ members : List Evaluator,
    decideAll depth v members
      = ((leavesAll members).map (decide depth v)).foldr Decision.and .includeAndContinue
  | [] => rfl
  | member :: rest => by
    rw [decideAll, leavesAll, decide_eq_foldr_leaves depth v member,
      decideAll_eq_foldr_leaves depth v rest, List.map_append, Decision.foldr_and_append]

end

theorem includes_decide (depth : Nat) (v : Vertex) (e : Evaluator) :
    (e.decide depth v).includes = e.leaves.all fun l => (l.decide depth v).includes := by
  rw [decide_eq_foldr_leaves, Decision.includes_foldr_and, List.all_map]
  rfl

theorem continues_decide (depth : Nat) (v : Vertex) (e : Evaluator) :
    (e.decide depth v).continues = e.leaves.all fun l => (l.decide depth v).continues := by
  rw [decide_eq_foldr_leaves, Decision.continues_foldr_and, List.all_map]
  rfl

/-! ### Shapes -/

/-- A shape of a tree has the same leaves, maybe in another order and more or less often. -/
theorem Rearranged.mem_leaves_iff {e e' : Evaluator} (h : e.Rearranged e') (l : Evaluator) :
    l ∈ e.leaves ↔ l ∈ e'.leaves := by
  induction h with
  | permute h => simp only [leaves_all, List.mem_flatMap, h.mem_iff]
  | @duplicate member members h =>
    rw [leaves_all, leaves_all, List.flatMap_cons, List.mem_append]
    exact ⟨Or.inr, fun hl => hl.elim (fun hl => List.mem_flatMap.mpr ⟨member, h, hl⟩) id⟩
  | regroup before group after =>
    simp only [leaves_all, List.flatMap_append, List.flatMap_cons]
  | collapse members => rw [leaves_allOf]
  | within before after _ ih =>
    simp only [leaves_all, List.flatMap_append, List.flatMap_cons, List.mem_append, ih]
  | refl e => rfl
  | symm _ ih => exact ih.symm
  | trans _ _ ih ih' => exact ih.trans ih'

mutual

/-- A tree can be made flat. -/
theorem rearranged_leaves : ∀ e : Evaluator, e.Rearranged (all e.leaves)
  | all members => rearranged_leavesAll [] members
  | tagSequence s => .symm (.collapse [tagSequence s])
  | whitelist l => .symm (.collapse [whitelist l])
  | blacklist l => .symm (.collapse [blacklist l])
  | endAndTerminator l => .symm (.collapse [endAndTerminator l])

theorem rearranged_leavesAll (before : List Evaluator) : ∀ members : List Evaluator,
    (all (before ++ members)).Rearranged (all (before ++ leavesAll members))
  | [] => .refl _
  | member :: rest => by
    -- The first member becomes a flat node, which is put away, and then come the others.
    have hfirst : (all (before ++ member :: rest)).Rearranged
        (all (before ++ (member.leaves ++ rest))) :=
      .trans (.within before rest (rearranged_leaves member)) (.symm (.regroup ..))
    have hrest := rearranged_leavesAll (before ++ member.leaves) rest
    rw [List.append_assoc, List.append_assoc] at hrest
    exact .trans hfirst hrest

end

theorem rearranged_append_of_subset {l m : List Evaluator} (h : m ⊆ l) :
    (all l).Rearranged (all (m ++ l)) := by
  induction m with
  | nil => exact .refl _
  | cons e rest ih =>
    have he : e ∈ rest ++ l := List.mem_append_right rest (h (List.mem_cons_self ..))
    exact .trans (ih fun a ha => h (List.mem_cons_of_mem _ ha)) (.duplicate he)

/-- **A tree can be put in the shape of another one just if they have the same leaves**, whatever
the order of the leaves and however often each of them is there. -/
theorem rearranged_iff {e e' : Evaluator} :
    e.Rearranged e' ↔ ∀ l, l ∈ e.leaves ↔ l ∈ e'.leaves := by
  constructor
  · exact Rearranged.mem_leaves_iff
  · intro h
    have hto := rearranged_append_of_subset fun l hl => (h l).mpr hl
    have hfrom := rearranged_append_of_subset fun l hl => (h l).mp hl
    -- Both lists of leaves are lengthened to the two lists together.
    exact (rearranged_leaves e).trans <| hto.trans <|
      (Rearranged.permute List.perm_append_comm).trans <| hfrom.symm.trans (rearranged_leaves e').symm

/-- **A tree includes and goes on where all of its leaves do, whatever its shape.** -/
theorem decide_rearranged (e : Evaluator) (depth : Nat) (v : Vertex) :
    ((e.decide depth v).includes = true ↔
        ∀ l ∈ e.leaves, (l.decide depth v).includes = true) ∧
      ((e.decide depth v).continues = true ↔
        ∀ l ∈ e.leaves, (l.decide depth v).continues = true) ∧
      ∀ e', e.Rearranged e' → e'.decide depth v = e.decide depth v := by
  refine ⟨?_, ?_, fun e' h => ?_⟩
  · rw [includes_decide, List.all_eq_true]
  · rw [continues_decide, List.all_eq_true]
  · refine Decision.ext ?_ ?_
    · rw [includes_decide, includes_decide, Bool.eq_iff_iff, List.all_eq_true, List.all_eq_true]
      simp only [h.mem_leaves_iff]
    · rw [continues_decide, continues_decide, Bool.eq_iff_iff, List.all_eq_true, List.all_eq_true]
      simp only [h.mem_leaves_iff]

/-- A whitelist two nodes deep and a blacklist, and the same two under one node, where the blacklist
is said twice. -/
theorem decide_rearranged_nested :
    (all [all [whitelist ⟨.ofList [⟨6⟩, ⟨7⟩], false⟩, all []],
        blacklist ⟨.ofList [⟨7⟩], false⟩]).Rearranged
      (allOf [all [blacklist ⟨.ofList [⟨7⟩], false⟩, whitelist ⟨.ofList [⟨6⟩, ⟨7⟩], false⟩,
        blacklist ⟨.ofList [⟨7⟩], false⟩]]) ∧
    (allOf [all [blacklist ⟨.ofList [⟨7⟩], false⟩, whitelist ⟨.ofList [⟨6⟩, ⟨7⟩], false⟩,
        blacklist ⟨.ofList [⟨7⟩], false⟩]]).decide 1 ⟨⟨7⟩, .empty⟩ = .excludeAndPrune := by
  have hshape : (all [all [whitelist ⟨.ofList [⟨6⟩, ⟨7⟩], false⟩, all []],
        blacklist ⟨.ofList [⟨7⟩], false⟩]).Rearranged
      (allOf [all [blacklist ⟨.ofList [⟨7⟩], false⟩, whitelist ⟨.ofList [⟨6⟩, ⟨7⟩], false⟩,
        blacklist ⟨.ofList [⟨7⟩], false⟩]]) := by
    refine rearranged_iff.mpr fun l => ?_
    show l ∈ [_, _] ↔ l ∈ [_, _, _]
    simp only [List.mem_cons, List.not_mem_nil]
    tauto
  exact ⟨hshape, ((decide_rearranged _ 1 _).2.2 _ hshape).trans (by decide)⟩

end Evaluator

end WalkFilter
