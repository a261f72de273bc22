/-
Records: values with named fields, each field under one or more spellings.

A record is written as an object, in which unknown keys are passed over and no
field may be given twice under any of its spellings, or as an array of its
fields in order, from which the last ones may be missing.

Main statements:
* `slots?_object_congr` — the fields of an object depend only on what is given
  for each of them;
* `slots?_object_perm` — the order of the members of an object is of no
  account;
* `slots?_ofSlots` — reading back the fields that were written gives them.
-/
import WalkFilter.Json.Value

namespace WalkFilter

namespace Json

/-- The value given for each field, if one is given. -/
abbrev Slots (F : Type) := F → Option Json

variable {F : Type} [DecidableEq F]

/-- The members of an object that give a field. -/
def given (fieldOf : String → Option F) (members : List (String × Json)) (f : F) :
    List Json :=
  (members.filter fun m => fieldOf m.1 = some f).map (·.2)

/-- The fields of a record.  `fieldOf` is the field that a key spells, and `fields` lists all
fields in order. -/
def slots? (fieldOf : String → Option F) (fields : List F) : Json → Option (Slots F)
  | object members =>
    if fields.all fun f => (given fieldOf members f).length ≤ 1 then
      some fun f => (given fieldOf members f).head?
    else none
  | array items =>
    if items.length ≤ fields.length then some fun f => items[fields.idxOf f]? else none
  | _ => none

/-- The object of the fields that are given, each under its key. -/
def ofSlots (key : F → String) (fields : List F) (s : Slots F) : Json :=
  object (fields.filterMap fun f => (s f).map (key f, ·))

/-- A field that must be given. -/
def Slots.required? {α : Type} (s : Slots F) (f : F) (read : Json → Option α) : Option α :=
  (s f).bind read

/-- A field that has a value of its own when it is not given. -/
def Slots.withDefault? {α : Type} (s : Slots F) (f : F) (default : α) (read : Json → Option α) :
    Option α :=
  match s f with
  | none => some default
  | some v => read v

theorem given_members {fieldOf : String → Option F} {key : F → String}
    (hkey : ∀ f, fieldOf (key f) = some f) {fields : List F} (hnodup : fields.Nodup) (s : Slots F)
    (f : F) :
    given fieldOf (fields.filterMap fun f => (s f).map (key f, ·)) f
      = if f ∈ fields then (s f).toList else [] := by
  induction fields with
  | nil => rfl
  | cons g rest ih =>
    obtain ⟨hg, hrest⟩ := List.nodup_cons.1 hnodup
    have ih := ih hrest
    simp only [given] at ih
    rw [given, List.filterMap_cons]
    by_cases hf : f = g
    -- The first field is the one asked for, and it does not come again.
    · subst hf
      rw [if_neg hg] at ih
      cases hs : s f with
      | none => simpa using ih
      | some v => simp [hkey, ih]
    · cases s g with
      | none => simpa [hf] using ih
      | some v => simpa [hkey, Ne.symm hf, hf] using ih

/-- Reading back the fields that were written gives them. -/
theorem slots?_ofSlots {fieldOf : String → Option F} {key : F → String} {fields : List F}
    (hkey : ∀ f, fieldOf (key f) = some f) (hnodup : fields.Nodup) (hall : ∀ f, f ∈ fields)
    (s : Slots F) : slots? fieldOf fields (ofSlots key fields s) = some s := by
  have hgiven := given_members hkey hnodup s
  simp only [hall, if_true] at hgiven
  rw [ofSlots, slots?]
  split
  · refine congrArg some (funext fun f => ?_)
    rw [hgiven]
    cases s f <;> rfl
  · next h =>
    refine absurd (List.all_eq_true.2 fun f _ => ?_) h
    rw [hgiven]
    cases s f <;> simp

theorem head?_eq_of_perm {α : Type} {l m : List α} (h : l.Perm m) (hl : l.length ≤ 1) :
    l.head? = m.head? := by
  match l, m, h.length_eq with
  | [], [], _ => rfl
  | [a], [b], _ => rw [List.perm_singleton.1 h.symm]

/-- The fields of an object depend only on what is given for each of them. -/
theorem slots?_object_congr {fieldOf : String → Option F} {fields : List F}
    {l m : List (String × Json)} (hall : ∀ f : F, f ∈ fields)
    (h : ∀ f, (given fieldOf l f).Perm (given fieldOf m f)) :
    slots? fieldOf fields (object l) = slots? fieldOf fields (object m) := by
  -- No field is given more often in one object than in the other.
  have hcond : (fields.all fun f => decide ((given fieldOf l f).length ≤ 1))
      = (fields.all fun f => decide ((given fieldOf m f).length ≤ 1)) := by
    congr 1
    funext f
    rw [(h f).length_eq]
  simp only [slots?]
  rw [← hcond]
  split
  · next hl =>
    refine congrArg some (funext fun f => ?_)
    exact head?_eq_of_perm (h f) (by simpa using (List.all_eq_true.1 hl) f (hall f))
  · rfl

/-- The order of the members of an object is of no account. -/
theorem slots?_object_perm {fieldOf : String → Option F} {fields : List F}
    {l m : List (String × Json)} (hall : ∀ f : F, f ∈ fields) (h : l.Perm m) :
    slots? fieldOf fields (object l) = slots? fieldOf fields (object m) :=
  slots?_object_congr hall fun _ => (h.filter _).map _

end Json

end WalkFilter
