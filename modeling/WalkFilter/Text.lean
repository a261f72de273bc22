/-
Blank characters, trimming, and cutting text at a separator.

The working functions are on lists of characters; each has a `String` form of
the same name.  Blank characters are the 25 of the Unicode property
White_Space.

Main statements:
* `join_split` — cutting at a separator loses nothing: joining the pieces
  with it gives the text back;
* `not_mem_of_mem_split` — no piece holds the separator.
-/
import WalkFilter.Text.CodePoints

namespace WalkFilter

namespace Chars

/-- The code points of White_Space. -/
def blankRanges : CodePoints :=
  [(0x09, 0x0D), (0x20, 0x20), (0x85, 0x85), (0xA0, 0xA0), (0x1680, 0x1680), (0x2000, 0x200A),
   (0x2028, 0x2029), (0x202F, 0x202F), (0x205F, 0x205F), (0x3000, 0x3000)]

/-- A blank character: one with the Unicode property White_Space. -/
def isBlank (c : Char) : Bool := blankRanges.has c

example : blankRanges.areApart = true ∧ blankRanges.size = 25 := by decide

/-- The text without the blank characters at its ends. -/
def trim (cs : List Char) : List Char :=
  ((cs.dropWhile isBlank).reverse.dropWhile isBlank).reverse

/-- The pieces between the occurrences of `sep`; a text without it is one piece. -/
def split (sep : Char) : List Char → List (List Char)
  | [] => [[]]
  | c :: rest =>
    if c = sep then [] :: split sep rest
    else match split sep rest with
      | [] => [[c]]
      | piece :: pieces => (c :: piece) :: pieces

/-- The pieces with `sep` between neighbours. -/
def join (sep : Char) : List (List Char) → List Char
  | [] => []
  | [piece] => piece
  | piece :: pieces => piece ++ sep :: join sep pieces

theorem split_ne_nil (sep : Char) (cs : List Char) : split sep cs ≠ [] := by
  cases cs with
  | nil => simp [split]
  | cons c rest =>
    simp only [split]
    split
    · simp
    · split <;> simp

theorem join_cons_cons (sep c : Char) (piece : List Char) (pieces : List (List Char)) :
    join sep ((c :: piece) :: pieces) = c :: join sep (piece :: pieces) := by
  cases pieces <;> rfl

/-- Joining what was cut apart gives the text back. -/
theorem join_split (sep : Char) (cs : List Char) : join sep (split sep cs) = cs := by
  induction cs with
  | nil => rfl
  | cons c rest ih =>
    simp only [split]
    split
    · next h =>
      subst h
      cases hs : split c rest with
      | nil => exact absurd hs (split_ne_nil c rest)
      | cons piece pieces => rw [hs] at ih; simp [join, ih]
    · cases hs : split sep rest with
      | nil => exact absurd hs (split_ne_nil sep rest)
      | cons piece pieces => rw [hs] at ih; simp only [join_cons_cons, ih]

/-- No piece holds the separator. -/
theorem not_mem_of_mem_split {sep : Char} {cs piece : List Char} (h : piece ∈ split sep cs) :
    sep ∉ piece := by
  induction cs generalizing piece with
  | nil =>
    simp only [split, List.mem_singleton] at h
    simp [h]
  | cons c rest ih =>
    simp only [split] at h
    split at h
    · rcases List.mem_cons.1 h with rfl | h
      · simp
      · exact ih h
    · next hc =>
      split at h
      · next hs => exact absurd hs (split_ne_nil sep rest)
      · next first pieces hs =>
        rcases List.mem_cons.1 h with rfl | h
        · have := ih (show first ∈ split sep rest by simp [hs])
          simp [this, Ne.symm hc]
        · exact ih (by simp [hs, h])

end Chars

namespace Text

/-- The text without the blank characters at its ends. -/
def trim (s : String) : String := String.ofList (Chars.trim s.toList)

/-- True when nothing but blank characters is in the text. -/
def isBlank (s : String) : Bool := s.toList.all Chars.isBlank

/-- The pieces between the occurrences of `sep`; never none. -/
def split (sep : Char) (s : String) : List String :=
  (Chars.split sep s.toList).map String.ofList

/-- The pieces with `sep` between neighbours. -/
def join (sep : Char) (pieces : List String) : String :=
  String.ofList (Chars.join sep (pieces.map String.toList))

theorem join_split (sep : Char) (s : String) : join sep (split sep s) = s := by
  simp [join, split, Function.comp_def, Chars.join_split]

theorem split_ne_nil (sep : Char) (s : String) : split sep s ≠ [] := by
  simp [split, Chars.split_ne_nil]

end Text

end WalkFilter
