/-
Text shown between quotes in a log.

Quotes and backslashes are escaped, and so is a character that would not show
or that would join the one before it: by a letter where it has one, otherwise
by the hexadecimal digits of its code point.
-/
import WalkFilter.Text.Extender
import WalkFilter.Text.Graphic

namespace WalkFilter

namespace Text

/-- Letters that keep a place free and have no shape. -/
def fillers : List Char := ['\u115f', '\u1160', '\u3164', '\uffa0']

/-- The sound marks that join the character before them but stand in a place of their own. -/
def halfwidthSoundMarks : List Char := ['\uff9e', '\uff9f']

/-- Does a character show by itself? -/
def isVisible (c : Char) : Bool :=
  c = ' ' ||
    (Chars.isGraphic c && c ∉ fillers && (c ∈ halfwidthSoundMarks || !Chars.isExtender c))

/-- The characters that a backslash and a letter stand for. -/
def letterEscapes : List (Char × Char) :=
  [('"', '"'), ('\\', '\\'), ('\x00', '0'), ('\t', 't'), ('\n', 'n'), ('\r', 'r')]

/-- One character between quotes. -/
def showChar (c : Char) : List Char :=
  match letterEscapes.lookup c with
  | some letter => ['\\', letter]
  | none =>
    if isVisible c then [c]
    else ['\\', 'u', '\x7b'] ++ Nat.toDigits 16 c.toNat ++ ['\x7d']

/-- The text between quotes. -/
def shown (s : String) : String := String.ofList ('"' :: s.toList.flatMap showChar ++ ['"'])

end Text

end WalkFilter
