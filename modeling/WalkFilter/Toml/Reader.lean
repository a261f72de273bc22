/-
Reading TOML: a machine that takes the tokens of a text one at a time.

The state of the machine is the document so far, the stack of arrays, inline
tables and keys whose values are still being read, and what comes next.
Newlines end a statement, but inside brackets and braces they are of no
account.
-/
import WalkFilter.Toml.Scalar
import WalkFilter.Toml.Table
import WalkFilter.Toml.Token

namespace WalkFilter

namespace Toml

/-- Something that waits for a value. -/
inductive Frame where
  /-- an array, its last item first -/
  | array (items : List Json)
  /-- an inline table -/
  | inline (t : Table)
  /-- a key, with the path in front of it, of the table below it on the stack or of the document -/
  | member (path : List String) (key : String)

/-- What a key is read for. -/
inductive KeyUse where
  /-- a header of a table -/
  | header
  /-- a header in double brackets -/
  | doubleHeader
  /-- a value -/
  | member
deriving DecidableEq

/-- What the machine expects next. -/
inductive Mode where
  /-- a statement -/
  | statement
  /-- the end of the line -/
  | lineEnd
  /-- a header, after its first bracket -/
  | header
  /-- the next part of a key, after the parts so far in reverse -/
  | key (use : KeyUse) (parts : List String)
  /-- a dot, or what ends the key -/
  | afterKey (use : KeyUse) (path : List String) (key : String)
  /-- the sign between a key and its value, a newline having ended the key -/
  | equals (path : List String) (key : String)
  /-- the second closing bracket of a header -/
  | headerEnd (path : List String) (key : String)
  /-- the first key of an inline table, or a key after a comma, or the closing brace -/
  | member
  /-- a value; an array may also end here -/
  | value
  /-- the rest of an unquoted scalar -/
  | scalar (seen : List Char)
  /-- a time after a date and one space -/
  | afterDate (seen : List Char)
  /-- a comma, or the end of an array or inline table -/
  | afterValue

/-- The state of the machine. -/
structure Reader where
  document : Table
  /-- the path of the table to which the statements of a line belong -/
  current : List String
  stack : List Frame
  mode : Mode

namespace Reader

/-- How deep arrays and inline tables may nest. -/
def maxNesting : Nat := 80

/-- How many parts a key may have. -/
def maxParts : Nat := 80

/-- The machine before the first token. -/
def start : Reader := ⟨.empty .declared, [], [], .statement⟩

/-- The number of arrays and inline tables that are open. -/
def nesting (stack : List Frame) : Nat :=
  stack.countP fun
    | .array _ | .inline _ => true
    | .member _ _ => false

/-- Open an array or an inline table. -/
def open? (r : Reader) (f : Frame) (mode : Mode) : Option Reader :=
  if nesting r.stack < maxNesting then some { r with stack := f :: r.stack, mode } else none

/-- A value is complete: it joins what waits for it. -/
def complete? (r : Reader) (v : Json) : Option Reader :=
  match r.stack with
  | .array items :: rest => some { r with stack := .array (v :: items) :: rest, mode := .afterValue }
  | .member path key :: .inline t :: rest =>
    (t.define? path key v).map fun t => { r with stack := .inline t :: rest, mode := .afterValue }
  | [.member path key] =>
    (r.document.changeAt .implied (·.define? path key v) r.current).map fun document =>
      { r with document, stack := [], mode := .lineEnd }
  | _ => none

/-- The innermost array ends. -/
def closeArray? (r : Reader) : Option Reader :=
  match r.stack with
  | .array items :: rest => complete? { r with stack := rest } (.array items.reverse)
  | _ => none

/-- The innermost inline table ends. -/
def closeInline? (r : Reader) : Option Reader :=
  match r.stack with
  | .inline t :: rest => complete? { r with stack := rest } t.toJson
  | _ => none

/-- Is the text a key without quotes? -/
def isBareKey (cs : List Char) : Bool :=
  cs.all fun c => c.isAlphanum || c = '_' || c = '-'

/-- The part of a key that a token spells out. -/
def keyPart? : Token → Option String
  | .text s false => some s
  | .bare cs => if isBareKey cs then some (String.ofList cs) else none
  | _ => none

/-- Read a part of a key. -/
def key? (r : Reader) (use : KeyUse) (parts : List String) (t : Token) : Option Reader :=
  (keyPart? t).map fun key => { r with mode := .afterKey use parts.reverse key }

/-- Begin a value with its first token. -/
def value? (r : Reader) (t : Token) : Option Reader :=
  match t with
  | .text s _ => complete? r (.string s)
  | .openBracket => open? r (.array []) .value
  | .openBrace => open? r (.inline (.empty .declared)) .member
  | .bare cs => some { r with mode := .scalar cs }
  | .dot => some { r with mode := .scalar ['.'] }
  | _ => none

/-- Is an array or an inline table open, so that a newline ends nothing? -/
def isEnclosed (r : Reader) : Bool := nesting r.stack ≠ 0

/-- A key is complete, and its value comes next. -/
def await (r : Reader) (path : List String) (key : String) : Reader :=
  { r with stack := .member path key :: r.stack, mode := .value }

/-- Is the innermost thing that waits for a value an array? -/
def inArray (r : Reader) : Bool :=
  match r.stack with
  | .array _ :: _ => true
  | _ => false

/-- A token where a value has just been completed or nothing is under way. -/
def between? (r : Reader) (t : Token) : Option Reader :=
  match r.mode, t with
  | .statement, .blank _ | .statement, .newline => some r
  | .statement, .openBracket => some { r with mode := .header }
  | .statement, t => key? r .member [] t
  | .lineEnd, .blank _ => some r
  | .lineEnd, .newline => some { r with mode := .statement }
  | .afterValue, .blank _ | .afterValue, .newline => some r
  | .afterValue, .comma => some { r with mode := if r.inArray then .value else .member }
  | .afterValue, .closeBracket => closeArray? r
  | .afterValue, .closeBrace => closeInline? r
  | _, _ => none

/-- A header is complete; `change` enters its table into the document. -/
def enter? (r : Reader) (path : List String) (key : String) (change : Option Table) :
    Option Reader :=
  change.map fun document => { r with document, current := path ++ [key], mode := .lineEnd }

/-- One token. -/
def step (r : Reader) (t : Token) : Option Reader :=
  match r.mode, t with
  | .header, .openBracket => some { r with mode := .key .doubleHeader [] }
  | .header, .blank _ => some { r with mode := .key .header [] }
  | .header, t => key? r .header [] t
  | .key _ _, .blank _ => some r
  | .key use parts, t => key? r use parts t
  | .afterKey _ _ _, .blank _ => some r
  | .afterKey use path key, .dot =>
    if path.length + 1 < maxParts then some { r with mode := .key use (key :: path.reverse) }
    else none
  | .afterKey .header path key, .closeBracket =>
    enter? r path key (r.document.declare? path key)
  | .afterKey .doubleHeader path key, .closeBracket => some { r with mode := .headerEnd path key }
  | .afterKey .member path key, .equals => some (await r path key)
  | .afterKey .member path key, .newline =>
    if r.isEnclosed then some { r with mode := .equals path key } else none
  | .equals _ _, .blank _ | .equals _ _, .newline => some r
  | .equals path key, .equals => some (await r path key)
  | .headerEnd path key, .closeBracket => enter? r path key (r.document.append? path key)
  | .member, .blank _ | .member, .newline => some r
  | .member, .closeBrace => closeInline? r
  | .member, t => key? r .member [] t
  | .value, .blank _ => some r
  | .value, .newline => if r.isEnclosed then some r else none
  | .value, .closeBracket => closeArray? r
  | .value, t => value? r t
  | .scalar seen, .bare cs => some { r with mode := .scalar (seen ++ cs) }
  | .scalar seen, .dot => some { r with mode := .scalar (seen ++ ['.']) }
  | .scalar seen, .blank true =>
    if isDate seen then some { r with mode := .afterDate seen }
    else (scalar? seen).bind (complete? r)
  | .scalar seen, t => ((scalar? seen).bind (complete? r)).bind (between? · t)
  | .afterDate seen, .bare cs => some { r with mode := .scalar (seen ++ ' ' :: cs) }
  | .afterDate seen, t => ((scalar? seen).bind (complete? r)).bind (between? · t)
  | _, t => between? r t

/-- The document, if the text may end here. -/
def finish? (r : Reader) : Option Table :=
  match r.mode with
  | .statement | .lineEnd => some r.document
  | .scalar seen | .afterDate seen =>
    ((scalar? seen).bind (complete? r)).bind fun r =>
      if r.stack.isEmpty then some r.document else none
  | _ => none

end Reader

/-- The value of a document. -/
def read? (s : String) : Option Json := do
  let tokens ← tokens? s
  let r ← tokens.foldlM Reader.step Reader.start
  return (← r.finish?).toJson

end Toml

end WalkFilter
