/-
Quotes found by offsets.

A text is stored in bytes, and a part of it is named by the offsets of its
two ends.  Such a part exists only if both offsets lie in the text and neither
lies inside a character, so a reader that cuts a text by offsets may fail
where one that takes it character by character cannot.

Main statements:
* `part?_append` — the part between the ends of a text inside another one is
  that text;
* `quotes_cases` — a text has no quote, or one, or a first and a last one with
  a text between them;
* `parseByOffsets?_eq` — the step that is cut out at the offsets of the first
  quote and of the last one is the step that the text spells out, and no cut
  fails;
* `parse_name_between_quotes` — what stands between the quotes is the edge
  type, whatever it is, and only the marks outside give the direction.
-/
import WalkFilter.Proofs.Quotation

namespace WalkFilter

namespace Text

/-- The part of a text between two offsets in bytes.  There is none if they are out of order, or
if one of them is past the end of the text or inside a character. -/
def part? (s : String) (start stop : ℕ) : Option String :=
  if h : start ≤ stop ∧ String.Pos.Raw.IsValid s ⟨start⟩ ∧ String.Pos.Raw.IsValid s ⟨stop⟩ then
    some (s.extract (s.pos ⟨start⟩ h.2.1) (s.pos ⟨stop⟩ h.2.2))
  else none

/-- The offsets at which `c` stands in a text that begins at the offset `start`. -/
def offsetsFrom (c : Char) (start : ℕ) : List Char → List ℕ
  | [] => []
  | d :: rest =>
    if d = c then start :: offsetsFrom c (start + d.utf8Size) rest
    else offsetsFrom c (start + d.utf8Size) rest

/-- The offset of the first `c`, if there is one. -/
def firstOffset? (c : Char) (s : String) : Option ℕ := (offsetsFrom c 0 s.toList).head?

/-- The offset of the last `c`, if there is one. -/
def lastOffset? (c : Char) (s : String) : Option ℕ := (offsetsFrom c 0 s.toList).getLast?

/-- An offset between two texts lies in the text that they make, between characters. -/
theorem isValid_utf8ByteSize (before after : String) :
    String.Pos.Raw.IsValid (before ++ after) ⟨before.utf8ByteSize⟩ :=
  String.Pos.Raw.isValid_iff_exists_append.mpr ⟨before, after, rfl, rfl⟩

/-- **The part between the ends of a text** inside another one is that text. -/
theorem part?_append (before s after : String) :
    part? (before ++ s ++ after) before.utf8ByteSize (before.utf8ByteSize + s.utf8ByteSize)
      = some s := by
  have hstart : String.Pos.Raw.IsValid (before ++ s ++ after) ⟨before.utf8ByteSize⟩ := by
    rw [String.append_assoc]
    exact isValid_utf8ByteSize before (s ++ after)
  have hstop : String.Pos.Raw.IsValid (before ++ s ++ after)
      ⟨before.utf8ByteSize + s.utf8ByteSize⟩ := by
    rw [← String.utf8ByteSize_append]
    exact isValid_utf8ByteSize (before ++ s) after
  rw [part?, dif_pos ⟨Nat.le_add_right _ _, hstart, hstop⟩]
  refine congrArg some (String.toByteArray_inj.mp ?_)
  have hbefore : before.utf8ByteSize = before.toByteArray.size := rfl
  have hs : s.utf8ByteSize = s.toByteArray.size := rfl
  rw [String.toByteArray_extract, String.offset_pos, String.offset_pos, hbefore, hs,
    String.toByteArray_append, String.toByteArray_append]
  -- The end of the part is the end of the first two texts, and the part is the second of them.
  calc (before.toByteArray ++ s.toByteArray ++ after.toByteArray).extract
        before.toByteArray.size (before.toByteArray.size + s.toByteArray.size)
      = ((before.toByteArray ++ s.toByteArray ++ after.toByteArray).extract 0
          (before.toByteArray.size + s.toByteArray.size)).extract
          before.toByteArray.size (before.toByteArray.size + s.toByteArray.size) := by
        rw [ByteArray.extract_extract, Nat.zero_add, Nat.zero_add, Nat.min_self]
    _ = (before.toByteArray ++ s.toByteArray).extract
          before.toByteArray.size (before.toByteArray.size + s.toByteArray.size) := by
        rw [ByteArray.extract_append_eq_left ByteArray.size_append.symm]
    _ = s.toByteArray := ByteArray.extract_append_eq_right rfl rfl

theorem part?_eq_some (before cs after : List Char) {text : List Char} {start stop : ℕ}
    (htext : text = before ++ cs ++ after) (hstart : start = String.utf8Len before)
    (hstop : stop = start + String.utf8Len cs) :
    part? (String.ofList text) start stop = some (String.ofList cs) := by
  subst htext hstart hstop
  rw [String.ofList_append, String.ofList_append, ← String.utf8ByteSize_ofList,
    ← String.utf8ByteSize_ofList]
  exact part?_append _ _ _

/-! ### The places of a character -/

section Offsets

variable {c : Char}

theorem offsetsFrom_of_not_mem {cs : List Char} (h : c ∉ cs) (start : ℕ) :
    offsetsFrom c start cs = [] := by
  induction cs generalizing start with
  | nil => rfl
  | cons d rest ih =>
    rw [List.mem_cons, not_or] at h
    rw [offsetsFrom, if_neg (Ne.symm h.1), ih h.2]

theorem offsetsFrom_append (start : ℕ) (cs ds : List Char) :
    offsetsFrom c start (cs ++ ds)
      = offsetsFrom c start cs ++ offsetsFrom c (start + String.utf8Len cs) ds := by
  induction cs generalizing start with
  | nil => rfl
  | cons d rest ih =>
    have hlen : start + d.utf8Size + String.utf8Len rest
        = start + String.utf8Len (d :: rest) := by
      rw [String.utf8Len_cons]
      omega
    rw [List.cons_append, offsetsFrom, offsetsFrom, ih, hlen]
    split_ifs
    · rw [List.cons_append]
    · rfl

/-- Nothing before the first `c` moves its offset but the text before it. -/
theorem firstOffset?_append_cons {before : List Char} (h : c ∉ before) (rest : List Char) :
    firstOffset? c (String.ofList (before ++ c :: rest)) = some (String.utf8Len before) := by
  rw [firstOffset?, String.toList_ofList, offsetsFrom_append, offsetsFrom_of_not_mem h,
    List.nil_append, offsetsFrom, if_pos rfl, List.head?_cons, Nat.zero_add]

theorem lastOffset?_append_cons {after : List Char} (h : c ∉ after) (before : List Char) :
    lastOffset? c (String.ofList (before ++ c :: after)) = some (String.utf8Len before) := by
  rw [lastOffset?, String.toList_ofList, offsetsFrom_append, offsetsFrom, if_pos rfl,
    offsetsFrom_of_not_mem h, List.getLast?_concat, Nat.zero_add]

theorem firstOffset?_of_not_mem {cs : List Char} (h : c ∉ cs) :
    firstOffset? c (String.ofList cs) = none := by
  rw [firstOffset?, String.toList_ofList, offsetsFrom_of_not_mem h, List.head?_nil]

end Offsets

end Text

namespace EdgeStep

/-! ### Steps cut out by offsets -/

/-- The text between the quotes at two offsets, and the text around them; none if a cut fails. -/
def unquoteAt? (text : String) (first last : ℕ) : Option (String × String) := do
  let name ← Text.part? text (first + quote.utf8Size) last
  let before ← Text.part? text 0 first
  let after ← Text.part? text (last + quote.utf8Size) text.utf8ByteSize
  return (name, before ++ after)

/-- The step that a text spells out, cut out of it at the offsets of the first quote and of the
last one; none if a cut fails. -/
def parseByOffsets? (s : String) : Option EdgeStep :=
  let text := Text.trim s
  let bare : EdgeStep := ⟨typeOf (bareName text.toList), directionOf text.toList⟩
  match Text.firstOffset? quote text, Text.lastOffset? quote text with
  | some first, some last =>
    if first < last then
      (unquoteAt? text first last).map fun (name, marks) =>
        ⟨typeOf name.toList, directionOf marks.toList⟩
    else some bare
  | _, _ => some bare

/-- Cuts at the offsets of the first quote and of the last one do not fail. -/
theorem unquoteAt?_eq (before name after : List Char) :
    unquoteAt? (String.ofList (before ++ quote :: (name ++ quote :: after)))
        (String.utf8Len before) (String.utf8Len (before ++ quote :: name))
      = some (String.ofList name, String.ofList (before ++ after)) := by
  have hname : Text.part? (String.ofList (before ++ quote :: (name ++ quote :: after)))
      (String.utf8Len before + quote.utf8Size) (String.utf8Len (before ++ quote :: name))
        = some (String.ofList name) := by
    refine Text.part?_eq_some (before ++ [quote]) name (quote :: after) (by simp) (by simp) ?_
    rw [String.utf8Len_append, String.utf8Len_cons]
    omega
  have hbefore : Text.part? (String.ofList (before ++ quote :: (name ++ quote :: after)))
      0 (String.utf8Len before) = some (String.ofList before) :=
    Text.part?_eq_some [] before (quote :: (name ++ quote :: after)) rfl rfl (Nat.zero_add _).symm
  have hafter : Text.part? (String.ofList (before ++ quote :: (name ++ quote :: after)))
      (String.utf8Len (before ++ quote :: name) + quote.utf8Size)
      (String.ofList (before ++ quote :: (name ++ quote :: after))).utf8ByteSize
        = some (String.ofList after) := by
    refine Text.part?_eq_some (before ++ quote :: (name ++ [quote])) after [] (by simp) ?_ ?_
    · simp only [String.utf8Len_append, String.utf8Len_cons, String.utf8Len_nil]
      omega
    · simp only [String.utf8ByteSize_ofList, String.utf8Len_append, String.utf8Len_cons]
      omega
  rw [unquoteAt?, hname, hbefore, hafter, String.ofList_append]
  rfl

/-- **The quotes of a text**: none, a single one, or a first and a last one. -/
theorem quotes_cases (cs : List Char) :
    quote ∉ cs ∨
      (∃ before after, quote ∉ before ∧ quote ∉ after ∧ cs = before ++ quote :: after) ∨
      ∃ before name after, quote ∉ before ∧ quote ∉ after ∧
        cs = before ++ quote :: (name ++ quote :: after) := by
  by_cases hfirst : quote ∈ cs
  · obtain ⟨before, rest, rfl, hbefore⟩ := List.eq_append_cons_of_mem hfirst
    by_cases hlast : quote ∈ rest
    · -- The last quote is the first one from the end.
      obtain ⟨after, name, hrest, hafter⟩ :=
        List.eq_append_cons_of_mem (List.mem_reverse.mpr hlast)
      have hrest' : rest = name.reverse ++ quote :: after.reverse := by
        rw [← List.reverse_reverse rest, hrest]
        simp
      refine Or.inr (Or.inr ⟨before, name.reverse, after.reverse, hbefore, ?_, by rw [hrest']⟩)
      exact fun h => hafter (List.mem_reverse.mp h)
    · exact Or.inr (Or.inl ⟨before, rest, hbefore, hlast, rfl⟩)
  · exact Or.inl hfirst

theorem unquote?_of_not_mem {cs : List Char} (h : quote ∉ cs) : unquote? cs = none := by
  have hdrop : cs.dropWhile (· ≠ quote) = [] :=
    List.dropWhile_eq_nil_iff.mpr (forall_ne_quote h)
  rw [unquote?, hdrop]

theorem unquote?_single {before after : List Char} (hbefore : quote ∉ before)
    (hafter : quote ∉ after) : unquote? (before ++ quote :: after) = none := by
  have hdrop : after.reverse.dropWhile (· ≠ quote) = [] :=
    List.dropWhile_eq_nil_iff.mpr (forall_ne_quote fun h => hafter (List.mem_reverse.mp h))
  rw [unquote?, dropWhile_ne_quote hbefore]
  dsimp only
  rw [hdrop]

/-- **No cut fails**, and the step that is cut out is the one that the text spells out. -/
theorem parseByOffsets?_eq (s : String) : parseByOffsets? s = some (parse s) := by
  rw [parseByOffsets?, parse, Text.trim]
  obtain hnone | ⟨before, after, hbefore, hafter, htext⟩ |
    ⟨before, name, after, hbefore, hafter, htext⟩ := quotes_cases (Chars.trim s.toList)
  · rw [unquote?_of_not_mem hnone, Text.firstOffset?_of_not_mem hnone, String.toList_ofList]
  · -- The first quote is the last one too, so nothing stands between them.
    rw [htext, unquote?_single hbefore hafter, Text.firstOffset?_append_cons hbefore,
      Text.lastOffset?_append_cons hafter, String.toList_ofList]
    dsimp only
    rw [if_neg (Nat.lt_irrefl _)]
  · have hlast : before ++ quote :: (name ++ quote :: after)
        = (before ++ quote :: name) ++ quote :: after := by simp
    have hlt : String.utf8Len before < String.utf8Len (before ++ quote :: name) := by
      have hpos := quote.utf8Size_pos
      rw [String.utf8Len_append, String.utf8Len_cons]
      omega
    have hlastOffset : Text.lastOffset? quote
        (String.ofList (before ++ quote :: (name ++ quote :: after)))
          = some (String.utf8Len (before ++ quote :: name)) := by
      rw [hlast, Text.lastOffset?_append_cons hafter]
    rw [htext, unquote?_eq hbefore hafter, Text.firstOffset?_append_cons hbefore, hlastOffset]
    dsimp only
    rw [if_pos hlt, unquoteAt?_eq, Option.map_some, String.toList_ofList, String.toList_ofList]

/-! ### Names between quotes -/

/-- **What stands between the first quote and the last is the edge type**, character for character;
if nothing stands there, the step follows every type.  The direction is that of the marks outside
the quotes.  No cut by offsets fails on the way. -/
theorem parse_name_between_quotes {before after : String} (hbefore : quote ∉ before.toList)
    (hafter : quote ∉ after.toList) (name : String) :
    parse (before ++ "\x60" ++ name ++ "\x60" ++ after)
        = { edgeType := if name = "" then none else some name
            direction :=
              if '<' ∈ before.toList ∨ '<' ∈ after.toList then .incoming
              else if '>' ∈ before.toList ∨ '>' ∈ after.toList then .outgoing
              else .both } ∧
      parseByOffsets? (before ++ "\x60" ++ name ++ "\x60" ++ after)
        = some (parse (before ++ "\x60" ++ name ++ "\x60" ++ after)) := by
  have htext : before ++ "\x60" ++ name ++ "\x60" ++ after
      = String.ofList (before.toList ++ quote :: (name.toList ++ quote :: after.toList)) := by
    rw [← String.toList_inj, String.toList_ofList]
    simp [quote]
  have htype : typeOf name.toList = if name = "" then none else some name := by
    rw [typeOf, String.ofList_toList]
    simp only [List.isEmpty_iff, String.toList_eq_nil_iff]
  have hdirection : directionOf (before.toList ++ after.toList)
      = if '<' ∈ before.toList ∨ '<' ∈ after.toList then .incoming
        else if '>' ∈ before.toList ∨ '>' ∈ after.toList then .outgoing
        else .both := by
    rw [directionOf]
    simp only [List.mem_append]
  refine ⟨?_, parseByOffsets?_eq _⟩
  rw [htext, parse_quoted hbefore hafter, htype, hdirection]

/-- A name with blanks, quotes and marks of its own, among characters of several bytes. -/
theorem parse_name_between_quotes_nested :
    quote ∉ "é >\u3000".toList ∧ quote ∉ "\u00a0<".toList ∧
      parse "é >\u3000\x60 ü\x60>:|,€ \x60\u00a0<" = ⟨some " ü\x60>:|,€ ", .incoming⟩ ∧
      parseByOffsets? "é >\u3000\x60 ü\x60>:|,€ \x60\u00a0<"
        = some ⟨some " ü\x60>:|,€ ", .incoming⟩ := by
  have hbefore : quote ∉ "é >\u3000".toList := by decide
  have hafter : quote ∉ "\u00a0<".toList := by decide
  obtain ⟨hparse, hcut⟩ := parse_name_between_quotes hbefore hafter " ü\x60>:|,€ "
  refine ⟨hbefore, hafter, hparse, hcut.trans (congrArg some hparse)⟩

end EdgeStep

end WalkFilter
