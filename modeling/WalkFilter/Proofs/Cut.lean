/-
Cutting and trimming.

Blank characters at the ends of a text end up at the ends of its first and
last piece, so a text may be trimmed before it is cut or its pieces after:

* **`map_trim_split_trim`** — the trimmed pieces of a text are those of the
  trimmed text;
* **`split_join`** — cutting gives back the pieces that were joined;
* **`alternate_eq_everyOther`** — the pieces in turn are those at the even and
  at the odd positions.
-/
import Mathlib
import WalkFilter.Request.Plan

namespace WalkFilter

namespace Chars

variable {c sep : Char}

theorem trim_eq (cs : List Char) :
    trim cs = (cs.dropWhile isBlank).rdropWhile isBlank := rfl

theorem trim_cons_of_isBlank (h : isBlank c) (cs : List Char) : trim (c :: cs) = trim cs := by
  rw [trim_eq, List.dropWhile_cons_of_pos h, trim_eq]

theorem trim_concat_of_isBlank (h : isBlank c) (cs : List Char) :
    trim (cs ++ [c]) = trim cs := by
  rw [trim_eq, trim_eq, List.dropWhile_append]
  split
  · next hnil =>
    rw [List.isEmpty_iff] at hnil
    rw [hnil, List.dropWhile_cons_of_pos h, List.dropWhile_nil]
  · exact List.rdropWhile_concat_pos _ _ _ h

theorem trim_dropWhile (cs : List Char) : trim (cs.dropWhile isBlank) = trim cs := by
  induction cs with
  | nil => rfl
  | cons c rest ih =>
    by_cases h : isBlank c
    · rw [List.dropWhile_cons_of_pos h, ih, trim_cons_of_isBlank h]
    · rw [List.dropWhile_cons_of_neg h]

theorem trim_rdropWhile (cs : List Char) : trim (cs.rdropWhile isBlank) = trim cs := by
  induction cs using List.reverseRecOn with
  | nil => rfl
  | append_singleton cs c ih =>
    by_cases h : isBlank c
    · rw [List.rdropWhile_concat_pos _ _ _ h, ih, trim_concat_of_isBlank h]
    · rw [List.rdropWhile_concat_neg _ _ _ h]

theorem trim_trim (cs : List Char) : trim (trim cs) = trim cs := by
  rw [trim_eq cs, trim_rdropWhile, trim_dropWhile]
  rfl

theorem dropWhile_append_cons (h : ¬ isBlank c) (before after : List Char) :
    (before ++ c :: after).dropWhile isBlank = before.dropWhile isBlank ++ c :: after := by
  induction before with
  | nil => rw [List.nil_append, List.dropWhile_cons_of_neg h, List.dropWhile_nil, List.nil_append]
  | cons d rest ih =>
    rw [List.cons_append]
    by_cases hd : isBlank d
    · rw [List.dropWhile_cons_of_pos hd, List.dropWhile_cons_of_pos hd, ih]
    · rw [List.dropWhile_cons_of_neg hd, List.dropWhile_cons_of_neg hd, List.cons_append]

theorem rdropWhile_append_cons (h : ¬ isBlank c) (before after : List Char) :
    (before ++ c :: after).rdropWhile isBlank = before ++ c :: after.rdropWhile isBlank := by
  have hreverse : (before ++ c :: after).reverse = after.reverse ++ c :: before.reverse := by simp
  rw [List.rdropWhile, hreverse, dropWhile_append_cons h, List.rdropWhile]
  simp

/-- Blanks are taken from both sides of a character that is none. -/
theorem trim_append_cons (h : ¬ isBlank c) (before after : List Char) :
    trim (before ++ c :: after) = before.dropWhile isBlank ++ c :: after.rdropWhile isBlank := by
  rw [trim_eq, dropWhile_append_cons h, rdropWhile_append_cons h]

/-! ### Trimmed pieces -/

theorem split_cons_of_ne (h : c ≠ sep) (cs : List Char) :
    ∃ piece pieces, split sep cs = piece :: pieces ∧
      split sep (c :: cs) = (c :: piece) :: pieces := by
  obtain ⟨piece, pieces, hs⟩ := List.exists_cons_of_ne_nil (split_ne_nil sep cs)
  exact ⟨piece, pieces, hs, by rw [split, if_neg h, hs]⟩

theorem split_concat_of_ne (h : c ≠ sep) (cs : List Char) :
    ∃ pieces piece, split sep cs = pieces ++ [piece] ∧
      split sep (cs ++ [c]) = pieces ++ [piece ++ [c]] := by
  induction cs with
  | nil => exact ⟨[], [], rfl, by simp [split, h]⟩
  | cons d rest ih =>
    obtain ⟨pieces, piece, hs, hc⟩ := ih
    by_cases hd : d = sep
    · refine ⟨[] :: pieces, piece, ?_, ?_⟩
      · rw [split, if_pos hd, hs, List.cons_append]
      · rw [List.cons_append, split, if_pos hd, hc, List.cons_append]
    · -- The first piece takes `d`, and it may be the last one too.
      rw [List.cons_append, split, split, if_neg hd, if_neg hd, hs, hc]
      cases pieces with
      | nil => exact ⟨[], d :: piece, rfl, rfl⟩
      | cons first pieces => exact ⟨(d :: first) :: pieces, piece, rfl, rfl⟩

theorem map_trim_split_dropWhile (hsep : ¬ isBlank sep) (cs : List Char) :
    (split sep (cs.dropWhile isBlank)).map trim = (split sep cs).map trim := by
  induction cs with
  | nil => rfl
  | cons c rest ih =>
    by_cases h : isBlank c
    · have hne : c ≠ sep := fun hc => hsep (hc ▸ h)
      obtain ⟨piece, pieces, hs, hc⟩ := split_cons_of_ne hne rest
      rw [List.dropWhile_cons_of_pos h, ih, hs, hc, List.map_cons, List.map_cons,
        trim_cons_of_isBlank h]
    · rw [List.dropWhile_cons_of_neg h]

theorem map_trim_split_rdropWhile (hsep : ¬ isBlank sep) (cs : List Char) :
    (split sep (cs.rdropWhile isBlank)).map trim = (split sep cs).map trim := by
  induction cs using List.reverseRecOn with
  | nil => rfl
  | append_singleton cs c ih =>
    by_cases h : isBlank c
    · have hne : c ≠ sep := fun hc => hsep (hc ▸ h)
      obtain ⟨pieces, piece, hs, hc⟩ := split_concat_of_ne hne cs
      rw [List.rdropWhile_concat_pos _ _ _ h, ih, hs, hc, List.map_append, List.map_append,
        List.map_singleton, List.map_singleton, trim_concat_of_isBlank h]
    · rw [List.rdropWhile_concat_neg _ _ _ h]

/-- **The trimmed pieces of a text are those of the trimmed text.** -/
theorem map_trim_split_trim (hsep : ¬ isBlank sep) (cs : List Char) :
    (split sep (trim cs)).map trim = (split sep cs).map trim := by
  rw [trim_eq, map_trim_split_rdropWhile hsep, map_trim_split_dropWhile hsep]

/-! ### Pieces joined -/

theorem mem_of_mem_trim {cs : List Char} (h : c ∈ trim cs) : c ∈ cs := by
  rw [trim_eq] at h
  exact (List.dropWhile_sublist _).subset ((List.rdropWhile_prefix _ _).subset h)

theorem mem_join_of_mem {pieces : List (List Char)} {piece : List Char} (h : piece ∈ pieces)
    (hc : c ∈ piece) : c ∈ join sep pieces := by
  induction pieces with
  | nil => exact absurd h List.not_mem_nil
  | cons first rest ih =>
    rcases rest with _ | ⟨next, rest⟩
    · rwa [join, ← List.mem_singleton.mp h]
    · show c ∈ first ++ sep :: join sep (next :: rest)
      rw [List.mem_append, List.mem_cons]
      rcases List.mem_cons.mp h with rfl | h
      · exact Or.inl hc
      · exact Or.inr (Or.inr (ih h))

theorem mem_join_cases {pieces : List (List Char)} (h : c ∈ join sep pieces) :
    c = sep ∨ ∃ piece ∈ pieces, c ∈ piece := by
  induction pieces with
  | nil => exact absurd h List.not_mem_nil
  | cons first rest ih =>
    rcases rest with _ | ⟨next, rest⟩
    · exact Or.inr ⟨first, List.mem_singleton_self _, h⟩
    · have hmem : c ∈ first ++ sep :: join sep (next :: rest) := h
      rw [List.mem_append, List.mem_cons] at hmem
      rcases hmem with hc | hc | hc
      · exact Or.inr ⟨first, List.mem_cons_self .., hc⟩
      · exact Or.inl hc
      · obtain hsep | ⟨piece, hpiece, hc'⟩ := ih hc
        · exact Or.inl hsep
        · exact Or.inr ⟨piece, List.mem_cons_of_mem _ hpiece, hc'⟩

theorem trim_eq_nil_iff {cs : List Char} : trim cs = [] ↔ ∀ c ∈ cs, isBlank c := by
  rw [trim_eq, List.rdropWhile_eq_nil_iff]
  constructor
  · intro h c hc
    rw [← List.takeWhile_append_dropWhile (p := isBlank) (l := cs), List.mem_append] at hc
    exact hc.elim List.mem_takeWhile_imp (h c)
  · exact fun h c hc => h c ((List.dropWhile_sublist _).subset hc)

/-- A text without the separator is one piece. -/
theorem split_of_not_mem {cs : List Char} (h : sep ∉ cs) : split sep cs = [cs] := by
  induction cs with
  | nil => rfl
  | cons c rest ih =>
    rw [List.mem_cons, not_or] at h
    rw [split, if_neg (Ne.symm h.1), ih h.2]

theorem mem_of_mem_split {cs piece : List Char} (h : piece ∈ split sep cs) (hc : c ∈ piece) :
    c ∈ cs := by
  rw [← join_split sep cs]
  exact mem_join_of_mem h hc

/-- Text before a separator and text after it are cut by themselves. -/
theorem split_append_cons (sep : Char) (before after : List Char) :
    split sep (before ++ sep :: after) = split sep before ++ split sep after := by
  induction before with
  | nil => rw [List.nil_append, split, split, if_pos rfl, List.singleton_append]
  | cons c rest ih =>
    rw [List.cons_append, split, split, ih]
    by_cases hc : c = sep
    · rw [if_pos hc, if_pos hc, List.cons_append]
    · obtain ⟨piece, pieces, hs⟩ := List.exists_cons_of_ne_nil (split_ne_nil sep rest)
      rw [if_neg hc, if_neg hc, hs, List.cons_append]
      rfl

/-- A text has one piece more than it has separators. -/
theorem length_split (sep : Char) (cs : List Char) :
    (split sep cs).length = cs.count sep + 1 := by
  induction cs with
  | nil => rfl
  | cons c rest ih =>
    by_cases h : c = sep
    · rw [split, if_pos h, List.length_cons, ih, h, List.count_cons_self]
    · obtain ⟨piece, pieces, hs, hc⟩ := split_cons_of_ne h rest
      rw [hc, List.count_cons_of_ne h, ← ih, hs, List.length_cons, List.length_cons]

/-- **Cutting gives back what was joined**, if there was a piece and none holds the separator. -/
theorem split_join {pieces : List (List Char)} (hne : pieces ≠ [])
    (h : ∀ piece ∈ pieces, sep ∉ piece) : split sep (join sep pieces) = pieces := by
  induction pieces with
  | nil => exact absurd rfl hne
  | cons piece rest ih =>
    obtain ⟨hpiece, hrest⟩ := List.forall_mem_cons.mp h
    cases rest with
    | nil => exact split_of_not_mem hpiece
    | cons next rest =>
      show split sep (piece ++ sep :: join sep (next :: rest)) = _
      rw [split_append_cons, split_of_not_mem hpiece, ih (List.cons_ne_nil _ _) hrest]
      rfl

end Chars

namespace Text

theorem trim_trim (s : String) : trim (trim s) = trim s := by
  rw [trim, trim, String.toList_ofList, Chars.trim_trim]

theorem map_trim_split_trim {sep : Char} (hsep : ¬ Chars.isBlank sep) (s : String) :
    (split sep (trim s)).map trim = (split sep s).map trim := by
  have h : ∀ cs : List Char, ((Chars.split sep cs).map String.ofList).map trim
      = ((Chars.split sep cs).map Chars.trim).map String.ofList := by
    intro cs
    simp [trim, Function.comp_def]
  rw [split, split, h, h, trim, String.toList_ofList, Chars.map_trim_split_trim hsep]

theorem isBlank_iff {s : String} : isBlank s = true ↔ trim s = "" := by
  rw [isBlank, List.all_eq_true, ← Chars.trim_eq_nil_iff, trim, ← String.toList_inj]
  simp

theorem isBlank_trim (s : String) : isBlank (trim s) = isBlank s := by
  rw [Bool.eq_iff_iff, isBlank_iff, isBlank_iff, trim_trim]

theorem length_split (sep : Char) (s : String) :
    (split sep s).length = s.toList.count sep + 1 := by
  rw [split, List.length_map, Chars.length_split]

theorem not_mem_of_mem_split {sep : Char} {s piece : String} (h : piece ∈ split sep s) :
    sep ∉ piece.toList := by
  obtain ⟨cs, hcs, rfl⟩ := List.mem_map.mp h
  rw [String.toList_ofList]
  exact Chars.not_mem_of_mem_split hcs

theorem mem_of_mem_split {sep c : Char} {s piece : String} (h : piece ∈ split sep s)
    (hc : c ∈ piece.toList) : c ∈ s.toList := by
  obtain ⟨cs, hcs, rfl⟩ := List.mem_map.mp h
  rw [String.toList_ofList] at hc
  exact Chars.mem_of_mem_split hcs hc

theorem split_of_not_mem {sep : Char} {s : String} (h : sep ∉ s.toList) : split sep s = [s] := by
  rw [split, Chars.split_of_not_mem h, List.map_singleton, String.ofList_toList]

/-- Cutting gives back what was joined, if there was a piece and none holds the separator. -/
theorem split_join {sep : Char} {pieces : List String} (hne : pieces ≠ [])
    (h : ∀ piece ∈ pieces, sep ∉ piece.toList) : split sep (join sep pieces) = pieces := by
  rw [split, join, String.toList_ofList, Chars.split_join (by simpa using hne) (by simpa using h)]
  simp [Function.comp_def]

theorem join_singleton (sep : Char) (piece : String) : join sep [piece] = piece :=
  String.ofList_toList

theorem mem_join_of_mem {sep c : Char} {pieces : List String} {piece : String} (h : piece ∈ pieces)
    (hc : c ∈ piece.toList) : c ∈ (join sep pieces).toList := by
  rw [join, String.toList_ofList]
  exact Chars.mem_join_of_mem (List.mem_map_of_mem h) hc

theorem mem_join_cases {sep c : Char} {pieces : List String} (h : c ∈ (join sep pieces).toList) :
    c = sep ∨ ∃ piece ∈ pieces, c ∈ piece.toList := by
  rw [join, String.toList_ofList] at h
  obtain hsep | ⟨cs, hcs, hc⟩ := Chars.mem_join_cases h
  · exact Or.inl hsep
  · obtain ⟨piece, hpiece, rfl⟩ := List.mem_map.mp hcs
    exact Or.inr ⟨piece, hpiece, hc⟩

/-- Where there are two pieces there is a separator between them. -/
theorem mem_join {sep : Char} (first second : String) (rest : List String) :
    sep ∈ (join sep (first :: second :: rest)).toList := by
  simp [join, Chars.join]

end Text

/-! ### Pieces in turn -/

/-- The elements at the even positions of a list, or those at the odd ones. -/
def everyOther {α : Type} (odd : Bool) (l : List α) : List α :=
  (l.zipIdx.filter fun x => x.2 % 2 = if odd then 1 else 0).map (·.1)

theorem map_filter_zipIdx {α : Type} (l : List α) (k r : Nat) (hr : r < 2) :
    ((l.zipIdx k).filter fun x => x.2 % 2 = r).map (·.1)
      = if k % 2 = r then (alternate l).1 else (alternate l).2 := by
  induction l generalizing k with
  | nil => simp [alternate]
  | cons a rest ih =>
    rw [List.zipIdx_cons, List.filter_cons, alternate]
    by_cases h : k % 2 = r
    · have hnext : ¬ (k + 1) % 2 = r := by omega
      simp [h, ih, hnext]
    · have hnext : (k + 1) % 2 = r := by omega
      simp [h, ih, hnext]

/-- Of pieces in turn, the first and every other one are half of them, rounded up. -/
theorem length_alternate {α : Type} (l : List α) :
    (alternate l).1.length = (l.length + 1) / 2 ∧ (alternate l).2.length = l.length / 2 := by
  induction l with
  | nil => simp [alternate]
  | cons a rest ih =>
    obtain ⟨hevens, hodds⟩ := ih
    rw [alternate]
    dsimp only
    rw [List.length_cons, List.length_cons, hevens, hodds]
    exact ⟨by omega, rfl⟩

theorem alternate_eq_everyOther {α : Type} (l : List α) :
    alternate l = (everyOther false l, everyOther true l) := by
  rw [everyOther, everyOther, map_filter_zipIdx l 0 _ (by decide),
    map_filter_zipIdx l 0 _ (by decide)]
  rfl

theorem everyOther_map {α β : Type} (odd : Bool) (f : α → β) (l : List α) :
    everyOther odd (l.map f) = (everyOther odd l).map f := by
  simp [everyOther, List.zipIdx_map, List.filter_map, Function.comp_def]

theorem mem_of_mem_everyOther {α : Type} {odd : Bool} {l : List α} {a : α}
    (h : a ∈ everyOther odd l) : a ∈ l := by
  obtain ⟨x, hx, rfl⟩ := List.mem_map.mp h
  exact List.fst_mem_of_mem_zipIdx (List.mem_filter.mp hx).1

theorem splitSequence_eq (s : String) (beginAtStart : Bool) :
    splitSequence s beginAtStart
      = ((everyOther (!beginAtStart) (Text.split ',' s)).map Text.trim,
          (everyOther beginAtStart (Text.split ',' s)).map Text.trim) := by
  rw [splitSequence, alternate_eq_everyOther, everyOther_map, everyOther_map]
  cases beginAtStart <;> rfl

end WalkFilter
