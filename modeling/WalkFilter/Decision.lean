/-
The decision about one path: is it a result, and does the walk go on from it?

The two answers are independent, and decisions are combined answer by answer,
so the decisions form the four-element Boolean lattice with `Decision.and` as
its meet.
-/

namespace WalkFilter

/-- What to do with a path. -/
structure Decision where
  /-- the path is a result -/
  includes : Bool
  /-- the walk goes on from the end of the path -/
  continues : Bool
deriving DecidableEq, Repr

namespace Decision

def includeAndContinue : Decision := ⟨true, true⟩
def includeAndPrune : Decision := ⟨true, false⟩
def excludeAndContinue : Decision := ⟨false, true⟩
def excludeAndPrune : Decision := ⟨false, false⟩

/-- Both decisions together: include and go on only where both do. -/
def and (a b : Decision) : Decision :=
  ⟨a.includes && b.includes, a.continues && b.continues⟩

/-- The decisions with their written names. -/
def names : List (String × Decision) :=
  [("INCLUDE_AND_CONTINUE", includeAndContinue), ("INCLUDE_AND_PRUNE", includeAndPrune),
   ("EXCLUDE_AND_CONTINUE", excludeAndContinue), ("EXCLUDE_AND_PRUNE", excludeAndPrune)]

/-- The written name of a decision. -/
def name (d : Decision) : String :=
  match d.includes, d.continues with
  | true, true => "INCLUDE_AND_CONTINUE"
  | true, false => "INCLUDE_AND_PRUNE"
  | false, true => "EXCLUDE_AND_CONTINUE"
  | false, false => "EXCLUDE_AND_PRUNE"

@[simp] theorem includes_and (a b : Decision) :
    (a.and b).includes = (a.includes && b.includes) := rfl

@[simp] theorem continues_and (a b : Decision) :
    (a.and b).continues = (a.continues && b.continues) := rfl

@[simp] theorem and_includeAndContinue (a : Decision) : a.and includeAndContinue = a := by
  simp [and, includeAndContinue]

@[simp] theorem includeAndContinue_and (a : Decision) : includeAndContinue.and a = a := by
  simp [and, includeAndContinue]

theorem and_comm (a b : Decision) : a.and b = b.and a := by
  simp [and, Bool.and_comm]

theorem and_assoc (a b c : Decision) : (a.and b).and c = a.and (b.and c) := by
  simp [and, Bool.and_assoc]

theorem ext {a b : Decision} (hincludes : a.includes = b.includes)
    (hcontinues : a.continues = b.continues) : a = b := by
  cases a
  cases b
  cases hincludes
  cases hcontinues
  rfl

theorem foldr_and_append (l m : List Decision) :
    (l ++ m).foldr and includeAndContinue
      = (l.foldr and includeAndContinue).and (m.foldr and includeAndContinue) := by
  induction l with
  | nil => simp
  | cons a rest ih => rw [List.cons_append, List.foldr_cons, List.foldr_cons, ih, and_assoc]

theorem includes_foldr_and (l : List Decision) :
    (l.foldr and includeAndContinue).includes = l.all (·.includes) := by
  induction l with
  | nil => rfl
  | cons a rest ih => rw [List.foldr_cons, includes_and, ih, List.all_cons]

theorem continues_foldr_and (l : List Decision) :
    (l.foldr and includeAndContinue).continues = l.all (·.continues) := by
  induction l with
  | nil => rfl
  | cons a rest ih => rw [List.foldr_cons, continues_and, ih, List.all_cons]

end Decision

end WalkFilter
