/-
The tokens of TOML, and the machine that cuts a text into them.

Comments are dropped.  Quoted text is a token with its escapes resolved; blanks
are tokens, since one of them may join a date and a time.  A run of other
characters is a single token, whatever it turns out to mean.
-/
import WalkFilter.Json.Value

namespace WalkFilter

namespace Toml

/-- A piece of a TOML text. -/
inductive Token where
  | newline
  /-- spaces and tabs, and whether they are just one space -/
  | blank (single : Bool)
  | dot
  | comma
  | equals
  | openBracket
  | closeBracket
  | openBrace
  | closeBrace
  /-- quoted text, between single quotes or in the form for several lines -/
  | text (s : String) (multiline : Bool)
  /-- any other run of characters -/
  | bare (cs : List Char)
deriving DecidableEq

namespace Token

/-- The tokens of a single character. -/
def ofChar? : Char → Option Token
  | '\n' => some newline
  | '.' => some dot
  | ',' => some comma
  | '=' => some equals
  | '[' => some openBracket
  | ']' => some closeBracket
  | '\x7b' => some openBrace
  | '\x7d' => some closeBrace
  | _ => none

end Token

/-- The two ways to quote. -/
inductive Quotes where
  /-- double quotes, with escapes -/
  | basic
  /-- single quotes, without escapes -/
  | literal
deriving DecidableEq

/-- The quoting character. -/
def Quotes.mark : Quotes → Char
  | basic => '"'
  | literal => '\''

/-- What the machine is in the middle of; the characters seen so far come in reverse. -/
inductive Scan where
  | between
  | comment
  | blank (seen : List Char)
  | bare (seen : List Char)
  /-- after one or two opening quotes -/
  | opening (q : Quotes) (second : Bool)
  /-- after three opening quotes, where a newline is left out -/
  | fresh (q : Quotes)
  /-- inside quoted text on one line -/
  | line (q : Quotes) (seen : List Char)
  /-- inside quoted text of several lines, after a run of quotes that may close it -/
  | block (q : Quotes) (seen : List Char) (quotes : Nat)
  /-- after a backslash -/
  | escape (multiline : Bool) (seen : List Char)
  /-- inside the digits of a code point: how many are to come, and the value so far -/
  | code (multiline : Bool) (seen : List Char) (toCome : Nat) (value : Nat)
  /-- between a backslash and the newline that it takes away -/
  | foldedLine (seen : List Char)
  /-- after such a newline, where blanks and newlines are left out -/
  | folded (seen : List Char)

namespace Scan

/-- May the character stand in a comment or, quotes and backslashes apart, in quoted text? -/
def isPlain (c : Char) : Bool := c = '\t' || (0x20 ≤ c.toNat && c.toNat ≠ 0x7F)

/-- Characters that end a run of bare ones. -/
def endsBare (c : Char) : Bool :=
  (Token.ofChar? c).isSome || c = ' ' || c = '\t' || c = '\r' || c = '#'

/-- The characters that a backslash and a letter stand for. -/
def escapes : List (Char × Char) :=
  [('b', '\x08'), ('t', '\t'), ('n', '\n'), ('f', '\x0c'), ('r', '\r'), ('e', '\x1b'),
   ('"', '"'), ('\\', '\\')]

/-- How many digits of a code point follow a backslash and a letter. -/
def codeLength? : Char → Option Nat
  | 'x' => some 2
  | 'u' => some 4
  | 'U' => some 8
  | _ => none

/-- Inside the quoted text again. -/
def resume (multiline : Bool) (seen : List Char) : Scan :=
  if multiline then block .basic seen 0 else line .basic seen

/-- The token of quoted text. -/
def quoted (multiline : Bool) (seen : List Char) : Token :=
  .text (String.ofList seen.reverse) multiline

/-- The character with this code point, unless it is none or half of a surrogate pair. -/
def charOf? (n : Nat) : Option Char := if n.isValidChar then some (Char.ofNat n) else none

/-- Begin a token, or finish one of a single character. -/
def start (c : Char) : List Token × Scan :=
  match Token.ofChar? c with
  | some t => ([t], between)
  | none =>
    if c = '#' then ([], comment)
    else if c = '\r' then ([], between)
    else if c = ' ' || c = '\t' then ([], blank [c])
    else if c = '"' then ([], opening .basic false)
    else if c = '\'' then ([], opening .literal false)
    else ([], bare [c])

/-- A character inside quoted text of several lines. -/
def inBlock? (q : Quotes) (seen : List Char) (c : Char) : Option (List Token × Scan) :=
  if c = q.mark then some ([], block q seen 1)
  else if c = '\\' && q = .basic then some ([], escape true seen)
  else if isPlain c || c = '\n' || c = '\r' then some ([], block q (c :: seen) 0)
  else none

/-- One character: the tokens that it completes, and the state after it. -/
def step (s : Scan) (c : Char) : Option (List Token × Scan) :=
  match s with
  | between => some (start c)
  | comment =>
    if isPlain c then some ([], comment)
    else if c = '\n' || c = '\r' then some (start c)
    else none
  | blank seen =>
    if c = ' ' || c = '\t' then some ([], blank (c :: seen))
    else
      let (tokens, s) := start c
      some (.blank (seen = [' ']) :: tokens, s)
  | bare seen =>
    if endsBare c then
      let (tokens, s) := start c
      some (.bare seen.reverse :: tokens, s)
    else some ([], bare (c :: seen))
  | opening q second =>
    if c = q.mark then some ([], if second then fresh q else opening q true)
    else if second then
      let (tokens, s) := start c
      some (quoted false [] :: tokens, s)
    else if c = '\\' && q = .basic then some ([], escape false [])
    else if isPlain c then some ([], line q [c])
    else none
  | fresh q =>
    if c = '\n' then some ([], block q [] 0)
    else if c = '\r' then some ([], fresh q)
    else inBlock? q [] c
  | line q seen =>
    if c = q.mark then some ([quoted false seen], between)
    else if c = '\\' && q = .basic then some ([], escape false seen)
    else if isPlain c then some ([], line q (c :: seen))
    else none
  | block q seen quotes =>
    if c = q.mark then if quotes < 5 then some ([], block q seen (quotes + 1)) else none
    else if quotes < 3 then inBlock? q (List.replicate quotes q.mark ++ seen) c
    else
      let (tokens, s) := start c
      some (quoted true (List.replicate (quotes - 3) q.mark ++ seen) :: tokens, s)
  | escape multiline seen =>
    match escapes.lookup c, codeLength? c with
    | some d, _ => some ([], resume multiline (d :: seen))
    | none, some n => some ([], code multiline seen (n - 1) 0)
    | none, none =>
      if !multiline then none
      else if c = '\n' then some ([], folded seen)
      else if c = ' ' || c = '\t' || c = '\r' then some ([], foldedLine seen)
      else none
  | code multiline seen toCome value =>
    (Json.hexValue? c).bind fun h =>
      match toCome with
      | 0 => (charOf? (16 * value + h)).map fun d => ([], resume multiline (d :: seen))
      | n + 1 => some ([], code multiline seen n (16 * value + h))
  | foldedLine seen =>
    if c = '\n' then some ([], folded seen)
    else if c = ' ' || c = '\t' || c = '\r' then some ([], foldedLine seen)
    else none
  | folded seen =>
    if c = ' ' || c = '\t' || c = '\r' || c = '\n' then some ([], folded seen)
    else inBlock? .basic seen c

/-- The tokens that the end of the text completes. -/
def finish? : Scan → Option (List Token)
  | between | comment => some []
  | blank seen => some [.blank (seen = [' '])]
  | bare seen => some [.bare seen.reverse]
  | opening _ true => some [quoted false []]
  | block q seen quotes =>
    if quotes < 3 then none
    else some [quoted true (List.replicate (quotes - 3) q.mark ++ seen)]
  | opening _ false | fresh _ | line _ _ | escape _ _ | code _ _ _ _ | foldedLine _ | folded _ =>
    none

end Scan

/-- Does a line feed follow every carriage return? -/
def returnsPaired : List Char → Bool
  | [] => true
  | '\r' :: rest => rest.head? = some '\n' && returnsPaired rest
  | _ :: rest => returnsPaired rest

/-- The tokens of a text.  A mark of the byte order at its beginning is passed over. -/
def tokens? (s : String) : Option (List Token) := do
  let cs := match s.toList with
    | '\ufeff' :: rest => rest
    | cs => cs
  if returnsPaired cs then
    let (done, last) ← cs.foldlM
      (fun (done, scan) c => (scan.step c).map fun (more, scan) => (more.reverse ++ done, scan))
      (([] : List Token), Scan.between)
    return done.reverse ++ (← last.finish?)
  else none

end Toml

end WalkFilter
