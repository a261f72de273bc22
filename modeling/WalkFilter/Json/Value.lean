/-
JSON values and their written forms.

The members of an object keep their order and may repeat a key.  Of numbers
only the naturals written with digits alone are told apart; any other number
is kept as it was written.
-/
import WalkFilter.Text

namespace WalkFilter

/-- A JSON value. -/
inductive Json where
  | null
  | bool (b : Bool)
  /-- a number written with digits alone -/
  | natural (n : Nat)
  /-- a number with a sign, a fraction or an exponent, as it was written -/
  | decimal (text : String)
  | string (s : String)
  /-- a string with half of a surrogate pair, which stands for no text; or an object with such
  a key -/
  | unpaired
  | array (items : List Json)
  | object (members : List (String × Json))

namespace Json

/-- The value of a hexadecimal digit of either case. -/
def hexValue? (c : Char) : Option Nat :=
  if '0' ≤ c ∧ c ≤ '9' then some (c.toNat - '0'.toNat)
  else if 'a' ≤ c ∧ c ≤ 'f' then some (c.toNat - 'a'.toNat + 10)
  else if 'A' ≤ c ∧ c ≤ 'F' then some (c.toNat - 'A'.toNat + 10)
  else none

/-- The hexadecimal digit of a value below 16. -/
def hexDigit (n : Nat) : Char := if n < 10 then Char.ofNat (48 + n) else Char.ofNat (87 + n)

/-- The characters that a backslash and a letter stand for. -/
def shortEscapes : List (Char × Char) :=
  [('"', '"'), ('\\', '\\'), ('\x08', 'b'), ('\x0c', 'f'), ('\n', 'n'), ('\r', 'r'), ('\t', 't')]

/-- One character inside quotes: escaped if it is a quote, a backslash or a control character. -/
def escapeChar (c : Char) : List Char :=
  match shortEscapes.lookup c with
  | some letter => ['\\', letter]
  | none =>
    if c.toNat < 0x20 then ['\\', 'u', '0', '0', hexDigit (c.toNat / 16), hexDigit (c.toNat % 16)]
    else [c]

/-- A text between quotes. -/
def quoted (s : String) : String :=
  String.ofList ('"' :: s.toList.flatMap escapeChar ++ ['"'])

mutual

/-- The value without blanks. -/
def compact : Json → String
  | null | unpaired => "null"
  | bool true => "true"
  | bool false => "false"
  | natural n => toString n
  | decimal text => text
  | string s => quoted s
  | array items => "[" ++ compactItems items ++ "]"
  | object members => "\x7b" ++ compactMembers members ++ "\x7d"

/-- The items of an array, separated by commas. -/
def compactItems : List Json → String
  | [] => ""
  | [v] => compact v
  | v :: rest => compact v ++ "," ++ compactItems rest

/-- The members of an object, separated by commas. -/
def compactMembers : List (String × Json) → String
  | [] => ""
  | [(k, v)] => quoted k ++ ":" ++ compact v
  | (k, v) :: rest => quoted k ++ ":" ++ compact v ++ "," ++ compactMembers rest

end

/-- The blanks at the beginning of a line of this depth. -/
def indent (depth : Nat) : String := String.ofList (List.replicate (2 * depth) ' ')

mutual

/-- The value with one item or member to a line, two blanks to a level.  What is empty stays on
its line. -/
def pretty (depth : Nat) : Json → String
  | array [] => "[]"
  | array items => "[\n" ++ prettyItems (depth + 1) items ++ "\n" ++ indent depth ++ "]"
  | object [] => "\x7b\x7d"
  | object members =>
    "\x7b\n" ++ prettyMembers (depth + 1) members ++ "\n" ++ indent depth ++ "\x7d"
  | null | unpaired => "null"
  | bool true => "true"
  | bool false => "false"
  | natural n => toString n
  | decimal text => text
  | string s => quoted s

/-- The items of an array, a line each. -/
def prettyItems (depth : Nat) : List Json → String
  | [] => ""
  | [v] => indent depth ++ pretty depth v
  | v :: rest => indent depth ++ pretty depth v ++ ",\n" ++ prettyItems depth rest

/-- The members of an object, a line each. -/
def prettyMembers (depth : Nat) : List (String × Json) → String
  | [] => ""
  | [(k, v)] => indent depth ++ quoted k ++ ": " ++ pretty depth v
  | (k, v) :: rest =>
    indent depth ++ quoted k ++ ": " ++ pretty depth v ++ ",\n" ++ prettyMembers depth rest

end

/-- The text, if the value is one. -/
def text? : Json → Option String
  | string s => some s
  | _ => none

/-- The truth value, if the value is one. -/
def bool? : Json → Option Bool
  | bool b => some b
  | _ => none

/-- The 64-bit number, if the value is one. -/
def word? : Json → Option UInt64
  | natural n => if n < UInt64.size then some (.ofNat n) else none
  | _ => none

/-- The number in an optional place: null is none. -/
def optional? {α : Type} (read : Json → Option α) : Json → Option (Option α)
  | null => some none
  | v => (read v).map some

/-- The items, if the value is an array of readable ones. -/
def list? {α : Type} (read : Json → Option α) : Json → Option (List α)
  | array items => items.mapM read
  | _ => none

/-- A 64-bit number as a value. -/
def ofWord (n : UInt64) : Json := natural n.toNat

@[simp] theorem word?_ofWord (n : UInt64) : (ofWord n).word? = some n := by
  simp [ofWord, word?, UInt64.toNat_lt_size]

end Json

end WalkFilter
