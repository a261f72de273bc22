/-
Reading back what was written.

The reader of JSON takes a text one character at a time and keeps the arrays
and objects that are open on a stack.  Whatever is open, the text of a value
leaves the reader as if the value had been pushed at once:

* **`run_escaped`** — what stands between quotes is the text, escapes undone;
* **`run_toDigits`** — a number is read digit by digit;
* **`reads_array`**, **`reads_object`** — items and members are read in turn;
* **`read?_compact`** — the text of a plain value spells out that value;
* **`ofJsonText_compact`** — every request is read back from its text.
-/
import Mathlib
import WalkFilter.Request.Written

namespace WalkFilter

namespace Json

namespace Reader

/-- What the reader makes of the rest of a text. -/
def run (r : Reader) (cs : List Char) : Option Json := (cs.foldlM step r).bind (·.finish?)

theorem run_cons {r s : Reader} {c : Char} (h : r.step c = some s) (cs : List Char) :
    r.run (c :: cs) = s.run cs := by
  rw [run, List.foldlM_cons, h]
  rfl

/-! ### Texts -/

/-- The piece that the reader makes of a character as it is written. -/
def pieceOf (c : Char) : Piece :=
  if shortEscapes.lookup c = none ∧ c.toNat < 0x20 then .unit c.toNat else .char c

theorem unescape?_of_lookup {c letter : Char} (h : shortEscapes.lookup c = some letter) :
    letter ≠ 'u' ∧ unescape? letter = some c := by
  have hall : ∀ p ∈ shortEscapes, p.2 ≠ 'u' ∧ unescape? p.2 = some p.1 := by decide
  have hmem : (c, letter) ∈ shortEscapes := by
    obtain ⟨before, after, hlist, -⟩ := List.lookup_eq_some_iff.mp h
    rw [hlist]
    simp
  exact hall _ hmem

theorem hexValue?_hexDigit {n : ℕ} (h : n < 16) : hexValue? (hexDigit n) = some n := by
  have hall : ∀ m < 16, hexValue? (hexDigit m) = some m := by decide
  exact hall n h

/-- A backslash and a letter make the character that they stand for. -/
theorem run_short (stack : List Frame) (isKey : Bool) (seen : List Piece) {c letter : Char}
    (h : shortEscapes.lookup c = some letter) (rest : List Char) :
    run ⟨stack, .text isKey seen⟩ ('\\' :: letter :: rest)
      = run ⟨stack, .text isKey (.char c :: seen)⟩ rest := by
  obtain ⟨hunit, hletter⟩ := unescape?_of_lookup h
  rw [run_cons (s := ⟨stack, .escape isKey seen⟩) rfl]
  refine run_cons ?_ rest
  simp only [step, if_neg hunit, hletter, Option.map_some]

/-- A number in hexadecimal digits makes the unit of that number. -/
theorem run_unit (stack : List Frame) (isKey : Bool) (seen : List Piece) {n : ℕ} (h : n < 0x100)
    (rest : List Char) :
    run ⟨stack, .text isKey seen⟩
        ('\\' :: 'u' :: '0' :: '0' :: hexDigit (n / 16) :: hexDigit (n % 16) :: rest)
      = run ⟨stack, .text isKey (.unit n :: seen)⟩ rest := by
  have hhigh : hexValue? (hexDigit (n / 16)) = some (n / 16) := hexValue?_hexDigit (by omega)
  have hlow : hexValue? (hexDigit (n % 16)) = some (n % 16) := hexValue?_hexDigit (by omega)
  have hvalue : 16 * (n / 16) + n % 16 = n := by omega
  rw [run_cons (s := ⟨stack, .escape isKey seen⟩) rfl,
    run_cons (s := ⟨stack, .unit isKey seen 3 0⟩) rfl,
    run_cons (s := ⟨stack, .unit isKey seen 2 0⟩) rfl,
    run_cons (s := ⟨stack, .unit isKey seen 1 0⟩) rfl,
    run_cons (s := ⟨stack, .unit isKey seen 0 (n / 16)⟩)]
  · refine run_cons ?_ rest
    simp only [step, hlow, hvalue, Option.map_some]
  · simp only [step, hhigh, Option.map_some, Nat.mul_zero, Nat.zero_add]

/-- One character as it is written makes one piece. -/
theorem run_escapeChar (stack : List Frame) (isKey : Bool) (seen : List Piece) (c : Char)
    (rest : List Char) :
    run ⟨stack, .text isKey seen⟩ (escapeChar c ++ rest)
      = run ⟨stack, .text isKey (pieceOf c :: seen)⟩ rest := by
  rw [escapeChar, pieceOf]
  rcases hlookup : shortEscapes.lookup c with _ | letter
  · show run _ ((if c.toNat < 0x20 then _ else [c]) ++ rest) = _
    by_cases hcontrol : c.toNat < 0x20
    · rw [if_pos hcontrol, if_pos ⟨rfl, hcontrol⟩]
      exact run_unit stack isKey seen (by omega) rest
    · rw [if_neg hcontrol, if_neg fun h => hcontrol h.2]
      have hquote : c ≠ '"' := by
        rintro rfl
        exact absurd hlookup (by decide)
      have hmark : c ≠ '\\' := by
        rintro rfl
        exact absurd hlookup (by decide)
      refine run_cons ?_ rest
      simp only [step, if_neg hquote, if_neg hmark, if_neg hcontrol]
  · have hescaped : ¬(some letter = none ∧ c.toNat < 0x20) :=
      fun h => Option.some_ne_none letter h.left
    rw [if_neg hescaped]
    exact run_short stack isKey seen hlookup rest

/-- The characters between quotes make one piece each. -/
theorem run_escaped (stack : List Frame) (isKey : Bool) (cs rest : List Char) :
    ∀ seen, run ⟨stack, .text isKey seen⟩ (cs.flatMap escapeChar ++ rest)
      = run ⟨stack, .text isKey ((cs.map pieceOf).reverse ++ seen)⟩ rest := by
  induction cs with
  | nil => exact fun _ => rfl
  | cons c cs ih =>
    intro seen
    rw [List.flatMap_cons, List.append_assoc, run_escapeChar, ih, List.map_cons,
      List.reverse_cons, List.append_assoc, List.singleton_append]

theorem textOf?_unit {n : ℕ} (h : n < 0xD800) (rest : List Piece) :
    textOf? (.unit n :: rest) = (textOf? rest).map (Char.ofNat n :: ·) := by
  -- The unit is not half of a pair, whatever comes next.
  have hhigh : ¬(0xD800 ≤ n ∧ n < 0xDC00) := fun hn => by omega
  have hlow : ¬(0xDC00 ≤ n ∧ n < 0xE000) := fun hn => by omega
  have hhalf : ¬(0xD800 ≤ n ∧ n < 0xE000) := fun hn => by omega
  rcases rest with _ | ⟨_ | m, rest⟩
  · exact if_neg hhalf
  · exact if_neg hhalf
  · rw [textOf?, if_neg hhigh, if_neg hlow]

/-- The pieces spell out the text. -/
theorem textOf?_map_pieceOf (cs : List Char) : textOf? (cs.map pieceOf) = some cs := by
  induction cs with
  | nil => rfl
  | cons c cs ih =>
    rw [List.map_cons, pieceOf]
    split_ifs with h
    · rw [textOf?_unit (by omega), ih, Option.map_some, Char.ofNat_toNat]
    · rw [textOf?, ih, Option.map_some]

theorem toList_quoted (s : String) :
    (quoted s).toList = '"' :: (s.toList.flatMap escapeChar ++ ['"']) := by
  rw [quoted, String.toList_ofList, List.cons_append]

/-- A text up to the quote that ends it. -/
theorem run_quoted (stack : List Frame) (isKey : Bool) (s : String) (rest : List Char)
    {r : Reader} (hclose : closeText? stack isKey (s.toList.map pieceOf).reverse = some r) :
    run ⟨stack, .text isKey []⟩ (s.toList.flatMap escapeChar ++ '"' :: rest) = r.run rest := by
  rw [run_escaped, List.append_nil]
  refine run_cons ?_ rest
  rw [← hclose]
  rfl

theorem textOf?_pieces (s : String) :
    (textOf? (s.toList.map pieceOf).reverse.reverse).map String.ofList = some s := by
  rw [List.reverse_reverse, textOf?_map_pieceOf, Option.map_some, String.ofList_toList]

/-- A key and the colon after it. -/
theorem run_key (stack : List Frame) (members : List (String × Json)) (mayClose : Bool)
    (k : String) (rest : List Char) :
    run ⟨.object members false none :: stack, .key mayClose⟩ ((quoted k).toList ++ ':' :: rest)
      = run ⟨.object members false (some k) :: stack, .value false⟩ rest := by
  rw [toList_quoted, List.cons_append, List.append_assoc]
  have hclose : closeText? (.object members false none :: stack) true
      (k.toList.map pieceOf).reverse
        = some ⟨.object members false (some k) :: stack, .colon⟩ := by
    simp only [closeText?, textOf?_pieces]
    rfl
  refine (run_cons rfl _).trans ((run_quoted _ true k (':' :: rest) hclose).trans ?_)
  exact run_cons rfl rest

/-! ### Numbers -/

/-- The part of a natural number that its digits lead to. -/
def partOf (n : ℕ) : NumberPart := if n = 0 then .zero else .digits

theorem next?_digitChar {d : ℕ} (h : d < 10) :
    NumberPart.digits.next? (Nat.digitChar d) = some .digits := by
  have hall : ∀ m < 10, NumberPart.digits.next? (Nat.digitChar m) = some .digits := by decide
  exact hall d h

/-- The digits of a number are read one by one. -/
theorem run_toDigits (stack : List Frame) (mayClose : Bool) (n : ℕ) :
    ∀ rest, run ⟨stack, .value mayClose⟩ (Nat.toDigits 10 n ++ rest)
      = run ⟨stack, .number (partOf n) (Nat.toDigits 10 n).reverse⟩ rest := by
  induction n using Nat.strong_induction_on with
  | _ n ih =>
    intro rest
    rw [Nat.toDigits_eq_if (by omega)]
    split_ifs with hn
    · interval_cases n <;> rfl
    · have hpart : partOf n = .digits := if_neg (by omega)
      have hpart' : partOf (n / 10) = .digits := if_neg (by omega)
      rw [List.append_assoc, ih (n / 10) (by omega), hpart, hpart', List.singleton_append]
      refine run_cons ?_ rest
      simp only [step, next?_digitChar (Nat.mod_lt n (by omega)), List.reverse_append,
        List.reverse_singleton, List.singleton_append]

theorem numberOf_toDigits (n : ℕ) : numberOf (Nat.toDigits 10 n) = natural n := by
  have hdigits : ∀ c ∈ Nat.toDigits 10 n, ('0' ≤ c && c ≤ '9') = true := by
    intro c hc
    exact Nat.isDigit_of_mem_toDigits (by omega) (by omega) hc
  rw [numberOf, if_pos (List.all_eq_true.mpr hdigits)]
  exact congrArg natural Nat.ofDigitChars_ten_toDigits

/-- No number goes on with what comes next. -/
def EndsNumber (rest : List Char) : Prop :=
  ∀ c ∈ rest.head?, ∀ part : NumberPart, part.next? c = none

theorem endsNumber_nil : EndsNumber [] := by
  intro c hc
  cases hc

theorem endsNumber_cons {c : Char} (hc : c ∈ [',', ']', '\x7d']) (rest : List Char) :
    EndsNumber (c :: rest) := by
  intro d hd part
  obtain rfl : c = d := Option.some_injective _ hd
  fin_cases hc <;> cases part <;> rfl

/-- A number is complete when no number goes on with what comes next. -/
theorem run_number (stack : List Frame) {part : NumberPart} (hpart : part.isEnd = true)
    (seen : List Char) {rest : List Char} (hrest : EndsNumber rest) :
    run ⟨stack, .number part seen⟩ rest = run (push stack (numberOf seen.reverse)) rest := by
  rcases rest with _ | ⟨c, rest⟩
  · rcases stack with _ | ⟨frame, stack⟩
    · exact if_pos hpart
    · rcases frame with items | ⟨members, spoilt, _ | key⟩ <;> rfl
  · have hnext := hrest c rfl part
    have hstep : step ⟨stack, .number part seen⟩ c
        = step (push stack (numberOf seen.reverse)) c := by
      simp only [step, hnext, if_pos hpart]
      rcases stack with _ | ⟨items | ⟨members, spoilt, _ | key⟩, stack⟩ <;> rfl
    rw [run, run, List.foldlM_cons, List.foldlM_cons, hstep]

/-! ### Values -/

/-- Wherever a value may stand, the text of this one is read as the value. -/
def Reads (v : Json) : Prop :=
  ∀ (stack : List Frame) (mayClose : Bool) (rest : List Char), EndsNumber rest →
    run ⟨stack, .value mayClose⟩ (v.compact.toList ++ rest) = run (push stack v) rest

theorem reads_null : Reads .null := by
  intro stack mayClose rest _
  rfl

theorem reads_bool (b : Bool) : Reads (.bool b) := by
  intro stack mayClose rest _
  rcases b with _ | _ <;> rfl

theorem reads_string (s : String) : Reads (.string s) := by
  intro stack mayClose rest _
  rw [compact, toList_quoted, List.cons_append, List.append_assoc]
  have hclose : closeText? stack false (s.toList.map pieceOf).reverse
      = some (push stack (.string s)) := by
    simp only [closeText?, textOf?_pieces]
    rfl
  exact (run_cons rfl _).trans (run_quoted stack false s rest hclose)

theorem reads_natural (n : ℕ) : Reads (.natural n) := by
  intro stack mayClose rest hrest
  have hpart : (partOf n).isEnd = true := by
    unfold partOf
    split_ifs <;> rfl
  rw [compact, Nat.toString_eq_repr, Nat.toList_repr, run_toDigits, run_number _ hpart _ hrest,
    List.reverse_reverse, numberOf_toDigits]

theorem Reads.run_mark {v : Json} (h : Reads v) (stack : List Frame) (mayClose : Bool) {c : Char}
    (hc : c ∈ [',', ']', '\x7d']) (rest : List Char) :
    run ⟨stack, .value mayClose⟩ (v.compact.toList ++ c :: rest) = run (push stack v) (c :: rest) :=
  h stack mayClose (c :: rest) (endsNumber_cons hc rest)

theorem toList_compactItems (v w : Json) (items : List Json) (rest : List Char) :
    (compactItems (v :: w :: items)).toList ++ rest
      = v.compact.toList ++ ',' :: ((compactItems (w :: items)).toList ++ rest) := by
  show (v.compact ++ "," ++ compactItems (w :: items)).toList ++ rest = _
  rw [String.toList_append, String.toList_append, List.append_assoc, List.append_assoc]
  rfl

/-- The items that are still to come join those read so far. -/
theorem run_items (stack : List Frame) (rest : List Char) (items : List Json) :
    ∀ (v : Json) (seen : List Json) (mayClose : Bool), (∀ w ∈ v :: items, Reads w) →
      run ⟨.array seen :: stack, .value mayClose⟩
          ((compactItems (v :: items)).toList ++ ']' :: rest)
        = run (push stack (.array (seen.reverse ++ v :: items))) rest := by
  induction items with
  | nil =>
    intro v seen mayClose hreads
    have hv : Reads v := hreads v List.mem_cons_self
    rw [compactItems, ← List.reverse_cons]
    exact (hv.run_mark _ _ (by simp) rest).trans (run_cons rfl rest)
  | cons w items ih =>
    intro v seen mayClose hreads
    obtain ⟨hv, hrest⟩ := List.forall_mem_cons.mp hreads
    have ih := ih w (v :: seen) false hrest
    rw [List.reverse_cons, List.append_assoc, List.singleton_append] at ih
    rw [toList_compactItems, ← ih]
    exact (hv.run_mark _ _ (by simp) _).trans (run_cons rfl _)

/-- An array is read if its items are. -/
theorem reads_array {items : List Json} (h : ∀ v ∈ items, Reads v) : Reads (.array items) := by
  intro stack mayClose rest _
  rw [compact, String.toList_append, String.toList_append, List.append_assoc, List.append_assoc]
  refine (run_cons (s := ⟨.array [] :: stack, .value true⟩) rfl _).trans ?_
  rcases items with _ | ⟨v, items⟩
  · exact run_cons rfl rest
  · exact run_items stack rest items v [] true h

/-- A member is read up to the mark after it. -/
theorem Reads.run_member {m : String × Json} (h : Reads m.2) (stack : List Frame)
    (seen : List (String × Json)) (mayClose : Bool) {c : Char} (hc : c ∈ [',', ']', '\x7d'])
    (rest : List Char) :
    run ⟨.object seen false none :: stack, .key mayClose⟩
        ((quoted m.1).toList ++ ':' :: (m.2.compact.toList ++ c :: rest))
      = run ⟨.object (m :: seen) false none :: stack, .after⟩ (c :: rest) :=
  (run_key stack seen mayClose m.1 _).trans (h.run_mark _ false hc rest)

theorem toList_compactMember (m : String × Json) (rest : List Char) :
    (compactMembers [m]).toList ++ rest
      = (quoted m.1).toList ++ ':' :: (m.2.compact.toList ++ rest) := by
  show (quoted m.1 ++ ":" ++ m.2.compact).toList ++ rest = _
  rw [String.toList_append, String.toList_append, List.append_assoc, List.append_assoc]
  rfl

theorem toList_compactMembers (m m' : String × Json) (members : List (String × Json))
    (rest : List Char) :
    (compactMembers (m :: m' :: members)).toList ++ rest
      = (quoted m.1).toList ++ ':' :: (m.2.compact.toList
          ++ ',' :: ((compactMembers (m' :: members)).toList ++ rest)) := by
  show (quoted m.1 ++ ":" ++ m.2.compact ++ "," ++ compactMembers (m' :: members)).toList
    ++ rest = _
  simp only [String.toList_append, List.append_assoc]
  rfl

/-- The members that are still to come join those read so far. -/
theorem run_members (stack : List Frame) (rest : List Char) (members : List (String × Json)) :
    ∀ (m : String × Json) (seen : List (String × Json)) (mayClose : Bool),
      (∀ m' ∈ m :: members, Reads m'.2) →
      run ⟨.object seen false none :: stack, .key mayClose⟩
          ((compactMembers (m :: members)).toList ++ '\x7d' :: rest)
        = run (push stack (.object (seen.reverse ++ m :: members))) rest := by
  induction members with
  | nil =>
    intro m seen mayClose hreads
    have hm : Reads m.2 := hreads m List.mem_cons_self
    rw [toList_compactMember, ← List.reverse_cons]
    exact (hm.run_member _ _ _ (by simp) rest).trans (run_cons rfl rest)
  | cons m' members ih =>
    intro m seen mayClose hreads
    obtain ⟨hm, hrest⟩ := List.forall_mem_cons.mp hreads
    have ih := ih m' (m :: seen) false hrest
    rw [List.reverse_cons, List.append_assoc, List.singleton_append] at ih
    rw [toList_compactMembers, ← ih]
    exact (hm.run_member _ _ _ (by simp) _).trans (run_cons rfl _)

/-- An object is read if the values of its members are. -/
theorem reads_object {members : List (String × Json)} (h : ∀ m ∈ members, Reads m.2) :
    Reads (.object members) := by
  intro stack mayClose rest _
  rw [compact, String.toList_append, String.toList_append, List.append_assoc, List.append_assoc]
  refine (run_cons (s := ⟨.object [] false none :: stack, .key true⟩) rfl _).trans ?_
  rcases members with _ | ⟨m, members⟩
  · exact run_cons rfl rest
  · exact run_members stack rest members m [] true h

end Reader

/-- A value in which every number is natural and every string and key stands for a text. -/
inductive IsPlain : Json → Prop where
  | null : IsPlain .null
  | bool (b : Bool) : IsPlain (.bool b)
  | natural (n : ℕ) : IsPlain (.natural n)
  | string (s : String) : IsPlain (.string s)
  | array {items : List Json} (h : ∀ v ∈ items, IsPlain v) : IsPlain (.array items)
  | object {members : List (String × Json)} (h : ∀ m ∈ members, IsPlain m.2) :
    IsPlain (.object members)

theorem IsPlain.reads {v : Json} (h : v.IsPlain) : Reader.Reads v := by
  induction h with
  | null => exact Reader.reads_null
  | bool b => exact Reader.reads_bool b
  | natural n => exact Reader.reads_natural n
  | string s => exact Reader.reads_string s
  | array _ ih => exact Reader.reads_array ih
  | object _ ih => exact Reader.reads_object ih

/-- The text of a plain value spells out that value. -/
theorem read?_compact {v : Json} (h : v.IsPlain) : read? v.compact = some v := by
  have hread := h.reads [] false [] Reader.endsNumber_nil
  rw [List.append_nil] at hread
  exact hread

end Json

namespace Request

theorem isPlain_toJson (q : Request) : q.toJson.IsPlain := by
  have hword (n : UInt64) : (Json.ofWord n).IsPlain := .natural _
  have hvertices (l : List VertexId) : (Json.array (l.map VertexId.toJson)).IsPlain := by
    refine .array fun v hv => ?_
    obtain ⟨id, -, rfl⟩ := List.mem_map.mp hv
    exact hword id.val
  have hoption {α : Type} {write : α → Json} (hwrite : ∀ a, (write a).IsPlain) (o : Option α) :
      ∀ v ∈ o.map write, v.IsPlain := by
    intro v hv
    obtain ⟨a, -, rfl⟩ := Option.mem_map.mp hv
    exact hwrite a
  have hsome {v : Json} (h : v.IsPlain) : ∀ w ∈ some v, w.IsPlain := by
    rintro w ⟨⟩
    exact h
  have hslots (f : RequestField) : ∀ v ∈ q.slots f, v.IsPlain := by
    cases f
    case tagFilter | edgeFilter | sequence => exact hoption .string _
    case maxLevel | limit => exact hoption hword _
    case minLevel => exact hsome (hword _)
    case uniqueness => exact hsome (.string _)
    case filterStart | beginAtStart | breadthFirst | optional => exact hsome (.bool _)
    case whitelist | blacklist | ends | terminators => exact hsome (hvertices _)
  refine .object fun m hm => ?_
  obtain ⟨f, -, hf⟩ := List.mem_filterMap.mp hm
  obtain ⟨v, hv, rfl⟩ := Option.map_eq_some_iff.mp hf
  exact hslots f v hv

/-- Every request is read back from its text. -/
theorem ofJsonText_compact (q : Request) : ofJsonText q.toJson.compact = .ok q := by
  rw [ofJsonText, Json.read?_compact q.isPlain_toJson, Option.bind_some, ofJson?_toJson]

end Request

end WalkFilter
