/-
Reading JSON: a machine that takes the text one character at a time.

The state of the machine is the stack of arrays and objects that are open and
what it expects next, so a text may nest to any depth.  The notation is the
strict one: no comments, no commas too many, no text after the value, no raw
control characters in strings.
-/
import WalkFilter.Json.Value

namespace WalkFilter

namespace Json

/-- A piece of a string: a character, or a 16-bit unit given by its number. -/
inductive Piece where
  | char (c : Char)
  | unit (n : Nat)

/-- The text of the pieces: pairs of surrogates make one character, and half a pair makes none. -/
def textOf? : List Piece → Option (List Char)
  | [] => some []
  | .char c :: rest => (textOf? rest).map (c :: ·)
  | .unit hi :: .unit lo :: rest =>
    if 0xD800 ≤ hi ∧ hi < 0xDC00 then
      if 0xDC00 ≤ lo ∧ lo < 0xE000 then
        (textOf? rest).map (Char.ofNat (0x10000 + (hi - 0xD800) * 0x400 + (lo - 0xDC00)) :: ·)
      else none
    else if 0xDC00 ≤ hi ∧ hi < 0xE000 then none
    else (textOf? (.unit lo :: rest)).map (Char.ofNat hi :: ·)
  | .unit n :: rest =>
    if 0xD800 ≤ n ∧ n < 0xE000 then none else (textOf? rest).map (Char.ofNat n :: ·)

/-- The parts of a number, by what may follow. -/
inductive NumberPart where
  /-- after the sign: a digit must follow -/
  | sign
  /-- after a leading zero -/
  | zero
  | digits
  /-- after the point: a digit must follow -/
  | point
  | fraction
  /-- after the exponent mark: a sign or a digit must follow -/
  | mark
  /-- after the sign of the exponent: a digit must follow -/
  | markSign
  | exponent
deriving DecidableEq

namespace NumberPart

/-- The part after one more character, or none if the character is not part of the number. -/
def next? (p : NumberPart) (c : Char) : Option NumberPart :=
  let digit := '0' ≤ c && c ≤ '9'
  match p with
  | sign => if c = '0' then some zero else if digit then some digits else none
  | zero => if c = '.' then some point else if c = 'e' || c = 'E' then some mark else none
  | digits =>
    if digit then some digits
    else if c = '.' then some point else if c = 'e' || c = 'E' then some mark else none
  | point => if digit then some fraction else none
  | fraction => if digit then some fraction else if c = 'e' || c = 'E' then some mark else none
  | mark =>
    if digit then some exponent else if c = '+' || c = '-' then some markSign else none
  | markSign => if digit then some exponent else none
  | exponent => if digit then some exponent else none

/-- May the number end here? -/
def isEnd : NumberPart → Bool
  | zero | digits | fraction | exponent => true
  | sign | point | mark | markSign => false

end NumberPart

/-- The value of a run of decimal digits. -/
def decimalValue (cs : List Char) : Nat :=
  cs.foldl (fun n c => 10 * n + (c.toNat - '0'.toNat)) 0

/-- The value of a number, by its characters. -/
def numberOf (cs : List Char) : Json :=
  if cs.all fun c => '0' ≤ c && c ≤ '9' then natural (decimalValue cs)
  else decimal (String.ofList cs)

/-- An array or object that is open. -/
inductive Frame where
  /-- the items so far, the last one first -/
  | array (items : List Json)
  /-- the members so far, the last one first, and the key of the next value; a key that stands
  for no text spoils the object -/
  | object (members : List (String × Json)) (spoilt : Bool) (key : Option String)

/-- What the machine is in the middle of. -/
inductive Mode where
  /-- a value comes next; after '[' the array may also be closed -/
  | value (mayClose : Bool)
  /-- a key comes next; after '{' the object may also be closed -/
  | key (mayClose : Bool)
  /-- ':' comes next -/
  | colon
  /-- an item or a member is complete: ',' or the end of the array or object comes next -/
  | after
  /-- the whole value is complete -/
  | done (v : Json)
  /-- inside `true`, `false` or `null`: the characters still to come -/
  | word (rest : List Char) (v : Json)
  /-- inside a number, its characters so far in reverse -/
  | number (part : NumberPart) (seen : List Char)
  /-- inside a string, its pieces so far in reverse -/
  | text (isKey : Bool) (seen : List Piece)
  /-- after a backslash in a string -/
  | escape (isKey : Bool) (seen : List Piece)
  /-- inside the digits of a unit: how many are to come, and the value so far -/
  | unit (isKey : Bool) (seen : List Piece) (toCome : Nat) (value : Nat)

/-- The state of the machine. -/
structure Reader where
  stack : List Frame
  mode : Mode

namespace Reader

/-- The machine before the first character. -/
def start : Reader := ⟨[], .value false⟩

/-- A value is complete: it is the whole, or it joins the innermost open array or object. -/
def push (stack : List Frame) (v : Json) : Reader :=
  match stack with
  | [] => ⟨[], .done v⟩
  | .array items :: rest => ⟨.array (v :: items) :: rest, .after⟩
  | .object members spoilt (some key) :: rest =>
    ⟨.object ((key, v) :: members) spoilt none :: rest, .after⟩
  | .object members _ none :: rest => ⟨.object members true none :: rest, .after⟩

/-- The innermost open array is complete. -/
def closeArray? : List Frame → Option Reader
  | .array items :: rest => some (push rest (.array items.reverse))
  | _ => none

/-- The innermost open object is complete. -/
def closeObject? : List Frame → Option Reader
  | .object members spoilt _ :: rest =>
    some (push rest (if spoilt then .unpaired else .object members.reverse))
  | _ => none

/-- The blanks between the parts of a value. -/
def isSpace (c : Char) : Bool := c = ' ' || c = '\n' || c = '\r' || c = '\t'

/-- Begin a value with its first character. -/
def begin? (stack : List Frame) (c : Char) : Option Reader :=
  match c with
  | '[' => some ⟨.array [] :: stack, .value true⟩
  | '\x7b' => some ⟨.object [] false none :: stack, .key true⟩
  | '"' => some ⟨stack, .text false []⟩
  | 't' => some ⟨stack, .word ['r', 'u', 'e'] (.bool true)⟩
  | 'f' => some ⟨stack, .word ['a', 'l', 's', 'e'] (.bool false)⟩
  | 'n' => some ⟨stack, .word ['u', 'l', 'l'] .null⟩
  | '-' => some ⟨stack, .number .sign ['-']⟩
  | c => (NumberPart.sign.next? c).map fun part => ⟨stack, .number part [c]⟩

/-- A character between the parts of a value. -/
def between? (r : Reader) (c : Char) : Option Reader :=
  if isSpace c then some r
  else match r.mode with
    | .value mayClose =>
      if c = ']' then if mayClose then closeArray? r.stack else none
      else begin? r.stack c
    | .key mayClose =>
      if c = '"' then some ⟨r.stack, .text true []⟩
      else if c = '\x7d' && mayClose then closeObject? r.stack
      else none
    | .colon => if c = ':' then some ⟨r.stack, .value false⟩ else none
    | .after =>
      match c, r.stack with
      | ',', .array _ :: _ => some ⟨r.stack, .value false⟩
      | ',', .object _ _ _ :: _ => some ⟨r.stack, .key false⟩
      | ']', stack => closeArray? stack
      | '\x7d', stack => closeObject? stack
      | _, _ => none
    | _ => none

/-- A string is complete, as a value or as the key of the member that follows. -/
def closeText? (stack : List Frame) (isKey : Bool) (seen : List Piece) : Option Reader :=
  let text := (textOf? seen.reverse).map String.ofList
  if isKey then
    match stack with
    | .object members spoilt _ :: rest =>
      some ⟨.object members (spoilt || text.isNone) text :: rest, .colon⟩
    | _ => none
  else some (push stack (match text with | some s => .string s | none => .unpaired))

/-- The character that a backslash and a letter stand for. -/
def unescape? (c : Char) : Option Char :=
  if c = '/' then some '/' else (shortEscapes.find? (·.2 = c)).map (·.1)

/-- One character. -/
def step (r : Reader) (c : Char) : Option Reader :=
  match r.mode with
  | .word (d :: rest) v =>
    if c = d then some (if rest.isEmpty then push r.stack v else ⟨r.stack, .word rest v⟩)
    else none
  | .word [] _ => none
  | .number part seen =>
    match part.next? c with
    | some part => some ⟨r.stack, .number part (c :: seen)⟩
    | none =>
      if part.isEnd then between? (push r.stack (numberOf seen.reverse)) c else none
  | .text isKey seen =>
    if c = '"' then closeText? r.stack isKey seen
    else if c = '\\' then some ⟨r.stack, .escape isKey seen⟩
    else if c.toNat < 0x20 then none
    else some ⟨r.stack, .text isKey (.char c :: seen)⟩
  | .escape isKey seen =>
    if c = 'u' then some ⟨r.stack, .unit isKey seen 3 0⟩
    else (unescape? c).map fun c => ⟨r.stack, .text isKey (.char c :: seen)⟩
  | .unit isKey seen toCome value =>
    (hexValue? c).map fun h =>
      match toCome with
      | 0 => ⟨r.stack, .text isKey (.unit (16 * value + h) :: seen)⟩
      | n + 1 => ⟨r.stack, .unit isKey seen n (16 * value + h)⟩
  | _ => between? r c

/-- The value, if the text may end here. -/
def finish? (r : Reader) : Option Json :=
  match r.mode, r.stack with
  | .done v, _ => some v
  | .number part seen, [] => if part.isEnd then some (numberOf seen.reverse) else none
  | _, _ => none

end Reader

/-- The value that a text spells out. -/
def read? (s : String) : Option Json := (s.toList.foldlM Reader.step Reader.start).bind (·.finish?)

end Json

end WalkFilter
