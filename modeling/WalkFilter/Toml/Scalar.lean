/-
The unquoted scalars of TOML: truth values, numbers, dates and times.

A natural number keeps its value.  Any other number, and every date and time,
is checked and kept as it was written, since nothing here computes with it.
-/
import WalkFilter.Json.Value

namespace WalkFilter

namespace Toml

/-- A decimal digit. -/
def isDigit (c : Char) : Bool := '0' ≤ c && c ≤ '9'

/-- Digits in groups joined by single underscores, the underscores left out. -/
def grouped? (isDigit : Char → Bool) (cs : List Char) : Option (List Char) :=
  let groups := Chars.split '_' cs
  if groups.all fun g => !g.isEmpty && g.all isDigit then some groups.flatten else none

/-- The number that digits spell in a base. -/
def valueIn (base : Nat) (cs : List Char) : Nat :=
  cs.foldl (fun n c => base * n + (Json.hexValue? c).getD 0) 0

/-- The digits of a whole number: no zero stands in front of another digit. -/
def whole? (cs : List Char) : Option (List Char) :=
  (grouped? isDigit cs).filter fun ds => ds = ['0'] || ds.head? ≠ some '0'

/-- The sign in front of a number, if there is one, and the rest. -/
def signed : List Char → Option Bool × List Char
  | '+' :: rest => (some false, rest)
  | '-' :: rest => (some true, rest)
  | cs => (none, cs)

/-- A number of this absolute value.  One that needs more than 128 bits is refused. -/
def integer? (negative : Bool) (n : Nat) : Option Json :=
  if !negative || n = 0 then if n < Nat.pow 2 128 then some (.natural n) else none
  else if n ≤ Nat.pow 2 127 then some (.decimal ("-" ++ toString n)) else none

/-- An integer: decimal with an optional sign, or in base 16, 8 or 2 without one. -/
def readInteger? (cs : List Char) : Option Json :=
  let inBase (base : Nat) (ds : List Char) : Option Json :=
    (grouped? (fun c => (Json.hexValue? c).any (· < base)) ds).bind fun ds =>
      integer? false (valueIn base ds)
  match cs with
  | '0' :: 'x' :: ds => inBase 16 ds
  | '0' :: 'o' :: ds => inBase 8 ds
  | '0' :: 'b' :: ds => inBase 2 ds
  | _ =>
    let (sign, rest) := signed cs
    (whole? rest).bind fun ds => integer? (sign.getD false) (valueIn 10 ds)

/-- The least number that is nearer to 2 ^ 1024 than to the greatest finite double below it. -/
def doubleLimit : Nat := Nat.pow 2 1024 - Nat.pow 2 970

/-- Does `digits` times ten to the power `exponent` round to a finite double? -/
def isFiniteDouble (digits : List Char) (exponent : Int) : Bool :=
  let significant := digits.dropWhile (· = '0')
  let magnitude : Int := significant.length + exponent
  if significant.isEmpty || magnitude < 309 then true
  else if 309 < magnitude then false
  else
    valueIn 10 significant * Nat.pow 10 exponent.toNat
      < doubleLimit * Nat.pow 10 (-exponent).toNat

/-- The exponent of a number, after its mark. -/
def exponent? (cs : List Char) : Option Int :=
  let (sign, rest) := signed cs
  (grouped? isDigit rest).map fun ds =>
    if sign = some true then -(valueIn 10 ds : Int) else valueIn 10 ds

/-- A number with a fraction, an exponent or both; one beyond the finite doubles is refused. -/
def readFraction? (cs : List Char) : Option Json := do
  let (_, body) := signed cs
  let isMark (c : Char) : Bool := c = 'e' || c = 'E'
  let mantissa := body.takeWhile (!isMark ·)
  let exponent ← match body.dropWhile (!isMark ·) with
    | [] => some 0
    | _ :: ds => exponent? ds
  let lead ← whole? (mantissa.takeWhile (· ≠ '.'))
  let fraction ← match mantissa.dropWhile (· ≠ '.') with
    | [] => if mantissa.length < body.length then some [] else none
    | _ :: ds => grouped? isDigit ds
  if isFiniteDouble (lead ++ fraction) (exponent - fraction.length) then
    some (.decimal (String.ofList cs))
  else none

/-- Two digits and what follows them. -/
def twoDigits? : List Char → Option (Nat × List Char)
  | a :: b :: rest => if isDigit a && isDigit b then some (valueIn 10 [a, b], rest) else none
  | _ => none

/-- The text after a given character. -/
def after? (c : Char) : List Char → Option (List Char)
  | d :: rest => if d = c then some rest else none
  | [] => none

/-- The number of days of a month in the calendar extended to all years. -/
def daysIn (year month : Nat) : Nat :=
  match month with
  | 2 => if year % 4 = 0 && (year % 100 ≠ 0 || year % 400 = 0) then 29 else 28
  | 4 | 6 | 9 | 11 => 30
  | _ => 31

/-- What follows a date such as `1979-05-27`. -/
def afterDate? (cs : List Char) : Option (List Char) := do
  let (century, cs) ← twoDigits? cs
  let (year, cs) ← twoDigits? cs
  let (month, cs) ← twoDigits? (← after? '-' cs)
  let (day, cs) ← twoDigits? (← after? '-' cs)
  if 1 ≤ month && month ≤ 12 && 1 ≤ day && day ≤ daysIn (100 * century + year) month then
    some cs
  else none

/-- What follows a time such as `07:32`, `07:32:00` or `07:32:00.5`. -/
def afterTime? (cs : List Char) : Option (List Char) := do
  let (hour, cs) ← twoDigits? cs
  let (minute, cs) ← twoDigits? (← after? ':' cs)
  if 23 < hour || 59 < minute then none
  else match after? ':' cs with
    | none => some cs
    | some cs => do
      let (second, cs) ← twoDigits? cs
      if 60 < second then none
      else match after? '.' cs with
        | none => some cs
        | some cs => if cs.head?.any isDigit then some (cs.dropWhile isDigit) else none

/-- Is the text empty or an offset such as `Z` or `-07:00`? -/
def isOffset : List Char → Bool
  | [] | ['Z'] | ['z'] => true
  | sign :: cs =>
    (sign = '+' || sign = '-') && (do
      let (hour, cs) ← twoDigits? cs
      let (minute, cs) ← twoDigits? (← after? ':' cs)
      return hour ≤ 23 && minute ≤ 59 && cs.isEmpty).getD false

/-- A date, a time, or both with an optional offset. -/
def isMoment (cs : List Char) : Bool :=
  match afterDate? cs with
  | some [] => true
  | some (c :: time) =>
    (c = 'T' || c = 't' || c = ' ') && (afterTime? time).any isOffset
  | none => (afterTime? cs).any (·.isEmpty)

/-- Is the text a date, which a time may follow after a blank? -/
def isDate (cs : List Char) : Bool := afterDate? cs = some []

/-- The words that stand for numbers. -/
def numberWords : List String := ["inf", "+inf", "-inf", "nan", "+nan", "-nan"]

/-- The value of an unquoted scalar. -/
def scalar? (cs : List Char) : Option Json :=
  let text := String.ofList cs
  if text = "true" then some (.bool true)
  else if text = "false" then some (.bool false)
  else if text ∈ numberWords || isMoment cs then some (.decimal text)
  else (readInteger? cs).or (readFraction? cs)

end Toml

end WalkFilter
