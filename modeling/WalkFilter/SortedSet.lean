/-
Finite sets as strictly ascending lists.

A set has one representation, so two sets with the same members are equal
(`SortedSet.ext`), and its members come out in ascending order, which is the
order in which sets are written.  A set of sets is ordered member by member.

Main statements:
* `mem_insert`, `mem_ofList` — what the constructors put into a set;
* `ext` — a set is determined by its members.
-/

namespace WalkFilter

open Std (TransOrd LawfulEqOrd)

/-- Put `a` in front of the first greater element, unless it is there already. -/
def insertAscending {α : Type} [Ord α] (a : α) : List α → List α
  | [] => [a]
  | b :: rest =>
    match compare a b with
    | .lt => a :: b :: rest
    | .eq => b :: rest
    | .gt => b :: insertAscending a rest

/-- A finite set, held as the ascending list of its members. -/
structure SortedSet (α : Type) [Ord α] where
  toList : List α
  ascending : toList.Pairwise (fun a b => compare a b = .lt)
deriving DecidableEq

variable {α : Type} [Ord α]

theorem mem_insertAscending [LawfulEqOrd α] {a b : α} {l : List α} :
    b ∈ insertAscending a l ↔ b = a ∨ b ∈ l := by
  induction l with
  | nil => simp [insertAscending]
  | cons c rest ih =>
    simp only [insertAscending]
    cases h : compare a c with
    | lt => simp
    | eq =>
      have : a = c := Std.LawfulEqCmp.eq_of_compare h
      subst this
      simp
    | gt =>
      simp only [List.mem_cons, ih]
      constructor
      · rintro (h | h | h) <;> simp [h]
      · rintro (h | h | h) <;> simp [h]

theorem pairwise_insertAscending [TransOrd α] [LawfulEqOrd α] {a : α} {l : List α}
    (h : l.Pairwise (fun a b => compare a b = .lt)) :
    (insertAscending a l).Pairwise (fun a b => compare a b = .lt) := by
  induction l with
  | nil => simp [insertAscending]
  | cons c rest ih =>
    have hc := List.pairwise_cons.1 h
    simp only [insertAscending]
    cases hac : compare a c with
    | lt =>
      refine List.pairwise_cons.2 ⟨fun b hb => ?_, h⟩
      rcases List.mem_cons.1 hb with rfl | hb
      · exact hac
      · exact Std.TransCmp.lt_trans hac (hc.1 b hb)
    | eq => exact h
    | gt =>
      refine List.pairwise_cons.2 ⟨fun b hb => ?_, ih hc.2⟩
      rcases mem_insertAscending.1 hb with rfl | hb
      · exact Std.OrientedCmp.lt_of_gt hac
      · exact hc.1 b hb

namespace SortedSet

instance : Membership α (SortedSet α) := ⟨fun s a => a ∈ s.toList⟩

theorem mem_toList {s : SortedSet α} {a : α} : a ∈ s.toList ↔ a ∈ s := Iff.rfl

instance [DecidableEq α] (a : α) (s : SortedSet α) : Decidable (a ∈ s) :=
  inferInstanceAs (Decidable (a ∈ s.toList))

/-- The set without members. -/
def empty : SortedSet α := ⟨[], List.Pairwise.nil⟩

instance : Inhabited (SortedSet α) := ⟨empty⟩

/-- True for the empty set only. -/
def isEmpty (s : SortedSet α) : Bool := s.toList.isEmpty

/-- The number of members. -/
def size (s : SortedSet α) : Nat := s.toList.length

/-- The set with one member. -/
def singleton (a : α) : SortedSet α := ⟨[a], List.pairwise_singleton _ _⟩

/-- Sets are ordered member by member, a proper beginning coming first. -/
instance : Ord (SortedSet α) := ⟨fun s t => compare s.toList t.toList⟩

@[simp] theorem not_mem_empty {a : α} : ¬ a ∈ (empty : SortedSet α) := by
  simp [← mem_toList, empty]

@[simp] theorem mem_singleton {a b : α} : b ∈ singleton a ↔ b = a := by
  simp [← mem_toList, singleton]

theorem toList_injective {s t : SortedSet α} (h : s.toList = t.toList) : s = t := by
  cases s; cases t; cases h; rfl

theorem isEmpty_iff {s : SortedSet α} : s.isEmpty = true ↔ ∀ a, ¬ a ∈ s := by
  simp [isEmpty, ← mem_toList, List.eq_nil_iff_forall_not_mem]

section Lawful

variable [TransOrd α] [LawfulEqOrd α]

/-- Add one member. -/
def insert (a : α) (s : SortedSet α) : SortedSet α :=
  ⟨insertAscending a s.toList, pairwise_insertAscending s.ascending⟩

/-- The set of the elements of a list. -/
def ofList (l : List α) : SortedSet α := l.foldr insert empty

@[simp] theorem mem_insert {a b : α} {s : SortedSet α} : b ∈ s.insert a ↔ b = a ∨ b ∈ s :=
  mem_insertAscending

@[simp] theorem mem_ofList {b : α} {l : List α} : b ∈ ofList l ↔ b ∈ l := by
  induction l with
  | nil => simp [ofList]
  | cons a rest ih =>
    have h : ofList (a :: rest) = (ofList rest).insert a := rfl
    rw [h, mem_insert, ih, List.mem_cons]

/-- Two ascending lists with the same members are the same list. -/
theorem eq_of_pairwise_of_mem_iff {l m : List α}
    (hl : l.Pairwise (fun a b => compare a b = .lt))
    (hm : m.Pairwise (fun a b => compare a b = .lt))
    (h : ∀ a, a ∈ l ↔ a ∈ m) : l = m := by
  have irrefl : ∀ a : α, ¬ compare a a = .lt := by
    intro a ha
    have := Std.ReflCmp.compare_self.symm.trans ha
    cases this
  induction l generalizing m with
  | nil =>
    cases m with
    | nil => rfl
    | cons b _ => exact absurd ((h b).2 (by simp)) (by simp)
  | cons a l ih =>
    cases m with
    | nil => exact absurd ((h a).1 (by simp)) (by simp)
    | cons b m =>
      have hl' := List.pairwise_cons.1 hl
      have hm' := List.pairwise_cons.1 hm
      -- The first elements are the least of both lists, so they agree.
      have hab : a = b := by
        rcases List.mem_cons.1 ((h a).1 (by simp)) with rfl | ha
        · rfl
        · rcases List.mem_cons.1 ((h b).2 (by simp)) with rfl | hb
          · rfl
          · exact absurd (Std.TransCmp.lt_trans (hl'.1 b hb) (hm'.1 a ha)) (irrefl a)
      subst hab
      -- The rests have the same members too, since neither holds its own first element.
      refine congrArg (a :: ·) (ih hl'.2 hm'.2 fun c => ?_)
      constructor
      · intro hc
        rcases List.mem_cons.1 ((h c).1 (List.mem_cons_of_mem _ hc)) with rfl | hc'
        · exact absurd (hl'.1 c hc) (irrefl c)
        · exact hc'
      · intro hc
        rcases List.mem_cons.1 ((h c).2 (List.mem_cons_of_mem _ hc)) with rfl | hc'
        · exact absurd (hm'.1 c hc) (irrefl c)
        · exact hc'

/-- A set is determined by its members. -/
theorem ext {s t : SortedSet α} (h : ∀ a, a ∈ s ↔ a ∈ t) : s = t :=
  toList_injective (eq_of_pairwise_of_mem_iff s.ascending t.ascending h)

instance : TransOrd (SortedSet α) where
  eq_swap {s t} := @Std.OrientedCmp.eq_swap (List α) compare _ s.toList t.toList
  isLE_trans {s t u} := @Std.TransCmp.isLE_trans (List α) compare _ s.toList t.toList u.toList

instance : LawfulEqOrd (SortedSet α) where
  compare_self {s} := @Std.ReflCmp.compare_self (List α) compare _ s.toList
  eq_of_compare {s t} h :=
    toList_injective (@Std.LawfulEqCmp.eq_of_compare (List α) compare _ s.toList t.toList h)

end Lawful

end SortedSet

end WalkFilter
