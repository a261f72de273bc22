/-
Requests written in other words.

A request is read from the members of an object.  Some of its fields have
several spellings, and members whose keys spell no field are passed over.

* **`SameField.exists_ofKey?`**, **`NamesNoField.ofKey?_eq_none`** — the reader
  takes exactly the spellings of `fieldSpellings`, those of one group for the
  same field;
* **`slots?_of_restated`** — another order, another spelling or a member that
  is passed over changes no field;
* **`slots?_of_repeated`** — an object that gives a field twice is no record;
* **`ofJsonText_restated`** — texts that say the same in other words spell out
  the same request, and one that gives a field twice spells out none.
-/
import Mathlib
import WalkFilter.Request.Written

namespace WalkFilter

/-! ### What is given for a field -/

namespace Json

variable {F : Type} [DecidableEq F] {fieldOf : String → Option F}

theorem given_append (l m : List (String × Json)) (f : F) :
    given fieldOf (l ++ m) f = given fieldOf l f ++ given fieldOf m f := by
  rw [given, List.filter_append, List.map_append]
  rfl

theorem given_cons (k : String) (v : Json) (m : List (String × Json)) (f : F) :
    given fieldOf ((k, v) :: m) f
      = if fieldOf k = some f then v :: given fieldOf m f else given fieldOf m f := by
  rw [given, List.filter_cons]
  by_cases h : fieldOf k = some f
  · rw [if_pos (decide_eq_true h), if_pos h]
    rfl
  · rw [if_neg (mt of_decide_eq_true h), if_neg h]
    rfl

/-- **An object that gives a field twice** is no record. -/
theorem slots?_of_repeated {fields : List F} (hall : ∀ f : F, f ∈ fields)
    {members : List (String × Json)} {a b : String × Json} (h : [a, b].Sublist members) {f : F}
    (ha : fieldOf a.1 = some f) (hb : fieldOf b.1 = some f) :
    slots? fieldOf fields (object members) = none := by
  have htwo : given fieldOf [a, b] f = [a.2, b.2] := by
    obtain ⟨k, v⟩ := a
    obtain ⟨k', v'⟩ := b
    rw [given_cons, given_cons, if_pos ha, if_pos hb]
    rfl
  -- Both values are among those given for the field.
  have hlength : 2 ≤ (given fieldOf members f).length := by
    have hsub : (given fieldOf [a, b] f).Sublist (given fieldOf members f) := (h.filter _).map _
    rw [htwo] at hsub
    exact hsub.length_le
  rw [slots?, if_neg]
  intro hfields
  have hf := of_decide_eq_true (List.all_eq_true.mp hfields f (hall f))
  omega

end Json

/-! ### Spellings -/

namespace Request

/-- The keys under which a request is read, those of a field together. -/
def fieldSpellings : List (List String) :=
  [["labelFilter", "tagFilter"], ["relationshipFilter", "edgeFilter"], ["sequence"], ["minLevel"],
   ["maxLevel"], ["limit"], ["filterStartNode", "filterStartVertex"], ["beginSequenceAtStart"],
   ["uniqueness"], ["bfs"], ["optional"],
   ["whitelistNodes", "allowlistNodes", "whitelistVertices"],
   ["blacklistNodes", "denylistNodes", "blacklistVertices"], ["endNodes", "endVertices"],
   ["terminatorNodes", "terminatorVertices"]]

/-- Both keys are spellings of one field. -/
def SameField (k k' : String) : Prop := ∃ keys ∈ fieldSpellings, k ∈ keys ∧ k' ∈ keys

/-- The key is no spelling of any field. -/
def NamesNoField (k : String) : Prop := ∀ keys ∈ fieldSpellings, k ∉ keys

instance (k k' : String) : Decidable (SameField k k') :=
  inferInstanceAs (Decidable (∃ keys ∈ fieldSpellings, _))

instance (k : String) : Decidable (NamesNoField k) :=
  inferInstanceAs (Decidable (∀ keys ∈ fieldSpellings, _))

theorem fieldSpellings_eq : fieldSpellings = RequestField.all.map RequestField.spellings := rfl

theorem ofKey?_of_mem_spellings {f : RequestField} {k : String} (h : k ∈ f.spellings) :
    RequestField.ofKey? k = some f := by
  -- No spelling belongs to two fields.
  have hall : ∀ g ∈ RequestField.all, ∀ k ∈ g.spellings, RequestField.ofKey? k = some g := by
    decide
  exact hall f (RequestField.mem_all f) k h

/-- **Spellings of one field** are read as that field. -/
theorem SameField.exists_ofKey? {k k' : String} (h : SameField k k') :
    ∃ f, RequestField.ofKey? k = some f ∧ RequestField.ofKey? k' = some f := by
  obtain ⟨keys, hkeys, hk, hk'⟩ := h
  rw [fieldSpellings_eq] at hkeys
  obtain ⟨f, -, rfl⟩ := List.mem_map.mp hkeys
  exact ⟨f, ofKey?_of_mem_spellings hk, ofKey?_of_mem_spellings hk'⟩

/-- **Any other key** is read as no field. -/
theorem NamesNoField.ofKey?_eq_none {k : String} (h : NamesNoField k) :
    RequestField.ofKey? k = none := by
  refine List.find?_eq_none.mpr fun f hf hk => ?_
  have hspellings : f.spellings ∈ fieldSpellings := by
    rw [fieldSpellings_eq]
    exact List.mem_map_of_mem hf
  exact h f.spellings hspellings (of_decide_eq_true hk)

/-! ### The same in other words -/

/-- One way to write the members of a request differently. -/
inductive Restated : List (String × Json) → List (String × Json) → Prop
  /-- in another order -/
  | reordered {l m : List (String × Json)} (h : l.Perm m) : Restated l m
  /-- with another spelling of a key -/
  | respelled {k k' : String} (h : SameField k k') (l : List (String × Json)) (v : Json)
    (m : List (String × Json)) : Restated (l ++ (k, v) :: m) (l ++ (k', v) :: m)
  /-- with one more member, whose key is no spelling of a field -/
  | extended {k : String} (h : NamesNoField k) (l : List (String × Json)) (v : Json)
    (m : List (String × Json)) : Restated (l ++ m) (l ++ (k, v) :: m)

/-- The members say the same: they are restated in any number of ways, there and back. -/
def SaySame : List (String × Json) → List (String × Json) → Prop := Relation.EqvGen Restated

/-- **Members that are restated once** give the same fields. -/
theorem slots?_of_restated {l m : List (String × Json)} (h : Restated l m) :
    Json.slots? RequestField.ofKey? RequestField.all (.object l)
      = Json.slots? RequestField.ofKey? RequestField.all (.object m) := by
  cases h with
  | reordered h => exact Json.slots?_object_perm RequestField.mem_all h
  | respelled h before v after =>
    obtain ⟨f, hk, hk'⟩ := h.exists_ofKey?
    refine Json.slots?_object_congr RequestField.mem_all fun g => List.Perm.of_eq ?_
    rw [Json.given_append, Json.given_append, Json.given_cons, Json.given_cons, hk, hk']
  | extended h before v after =>
    refine Json.slots?_object_congr RequestField.mem_all fun g => List.Perm.of_eq ?_
    rw [Json.given_append, Json.given_append, Json.given_cons, h.ofKey?_eq_none,
      if_neg (Option.some_ne_none g).symm]

theorem slots?_of_saySame {l m : List (String × Json)} (h : SaySame l m) :
    Json.slots? RequestField.ofKey? RequestField.all (.object l)
      = Json.slots? RequestField.ofKey? RequestField.all (.object m) := by
  induction h with
  | rel l m h => exact slots?_of_restated h
  | refl l => rfl
  | symm l m _ ih => exact ih.symm
  | trans l m n _ _ ihl ihm => exact ihl.trans ihm

/-- A text that spells an object spells the request of its fields. -/
theorem ofJsonText_of_read? {s : String} {members : List (String × Json)}
    (h : Json.read? s = some (.object members)) :
    ofJsonText s
      = match (Json.slots? RequestField.ofKey? RequestField.all (.object members)).bind
          (ofSlots? Json.isNull) with
        | some q => .ok q
        | none => .error .malformed := by
  rw [ofJsonText, h]
  rfl

/-- **Texts that say the same in other words** spell out the same request, or neither spells out
one; and a text in which two members name the same field spells out none. -/
theorem ofJsonText_restated {s t : String} {l m : List (String × Json)}
    (hs : Json.read? s = some (.object l)) (ht : Json.read? t = some (.object m)) :
    (SaySame l m → ofJsonText s = ofJsonText t) ∧
      ∀ a b, [a, b].Sublist l → SameField a.1 b.1 → ofJsonText s = .error .malformed := by
  rw [ofJsonText_of_read? hs, ofJsonText_of_read? ht]
  constructor
  · intro hsame
    rw [slots?_of_saySame hsame]
  · intro a b hsub hfield
    obtain ⟨f, ha, hb⟩ := hfield.exists_ofKey?
    rw [Json.slots?_of_repeated RequestField.mem_all hsub ha hb]
    rfl

/-- A key respelled, a note left out and the order turned round; and a field given under two of its
spellings. -/
theorem ofJsonText_restated_aliases :
    ofJsonText "\x7b\"tagFilter\":\"A\",\"note\":null,\"bfs\":false\x7d"
        = ofJsonText "\x7b\"bfs\":false,\"labelFilter\":\"A\"\x7d" ∧
      ofJsonText "\x7b\"bfs\":false,\"labelFilter\":\"A\"\x7d"
        = .ok { tagFilter := some "A", breadthFirst := false } ∧
      ofJsonText "\x7b\"endNodes\":[],\"bfs\":true,\"endVertices\":[7]\x7d"
        = .error .malformed := by
  have hlong : Json.read? "\x7b\"tagFilter\":\"A\",\"note\":null,\"bfs\":false\x7d"
      = some (.object [("tagFilter", .string "A"), ("note", .null), ("bfs", .bool false)]) := rfl
  have hshort : Json.read? "\x7b\"bfs\":false,\"labelFilter\":\"A\"\x7d"
      = some (.object [("bfs", .bool false), ("labelFilter", .string "A")]) := rfl
  have htwice : Json.read? "\x7b\"endNodes\":[],\"bfs\":true,\"endVertices\":[7]\x7d"
      = some (.object [("endNodes", .array []), ("bfs", .bool true),
          ("endVertices", .array [.natural 7])]) := rfl
  have hnote : SaySame [("tagFilter", .string "A"), ("note", .null), ("bfs", .bool false)]
      [("tagFilter", .string "A"), ("bfs", .bool false)] :=
    .symm _ _ (.rel _ _ (.extended (by decide) [("tagFilter", .string "A")] .null
      [("bfs", .bool false)]))
  have hkey : SaySame [("tagFilter", .string "A"), ("bfs", .bool false)]
      [("labelFilter", .string "A"), ("bfs", .bool false)] :=
    .rel _ _ (.respelled (by decide) [] (.string "A") [("bfs", .bool false)])
  have horder : SaySame [("labelFilter", .string "A"), ("bfs", .bool false)]
      [("bfs", .bool false), ("labelFilter", .string "A")] :=
    .rel _ _ (.reordered (List.Perm.swap _ _ _))
  refine ⟨?_, rfl, ?_⟩
  · exact (ofJsonText_restated hlong hshort).1
      (.trans _ _ _ hnote (.trans _ _ _ hkey horder))
  · refine (ofJsonText_restated htwice htwice).2 ("endNodes", .array [])
      ("endVertices", .array [.natural 7]) ?_ (by decide)
    exact .cons_cons _ (.cons _ (.cons_cons _ .slnil))

end Request

end WalkFilter
