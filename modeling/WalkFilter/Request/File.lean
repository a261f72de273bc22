/-
Requests in files: which format a file is in, and what its bytes spell.

The format goes by the extension of the name; a name that begins with its
only dot has none.
-/
import WalkFilter.Request.Written
import WalkFilter.Toml.Reader

namespace WalkFilter

/-- The formats of request files. -/
inductive RequestFormat where
  | json
  | toml
deriving DecidableEq, Repr

namespace RequestFormat

/-- What follows the last dot of the last part of a path, unless that part begins with the dot. -/
def extension? (path : String) : Option String :=
  let backward := path.toList.reverse.takeWhile (· ≠ '/')
  match backward.dropWhile (· ≠ '.') with
  | [] | [_] => none
  | _ => some (String.ofList (backward.takeWhile (· ≠ '.')).reverse)

/-- A file with the extension `toml`, in letters of any case, is in TOML, and any other in JSON. -/
def ofPath (path : String) : RequestFormat :=
  if (extension? path).any (·.toLower = "toml") then toml else json

end RequestFormat

/-- In TOML an empty array or table stands beside the name of a choice. -/
def Json.isVoid : Json → Bool
  | .array items => items.isEmpty
  | .object members => members.isEmpty
  | _ => false

namespace Request

/-- The request that a TOML text spells out. -/
def ofTomlText (s : String) : Except RequestError Request :=
  match (Toml.read? s).bind (ofRecord? Json.isVoid) with
  | some q => .ok q
  | none => .error .malformed

/-- The request that a text in a format spells out. -/
def ofText : RequestFormat → String → Except RequestError Request
  | .json => ofJsonText
  | .toml => ofTomlText

/-- The request in the file at a path, given its bytes if there is such a file. -/
def ofFile (path : String) (content : Option ByteArray) : Except RequestError Request :=
  match content.bind String.fromUTF8? with
  | some s => ofText (.ofPath path) s
  | none => .error .unreadable

end Request

end WalkFilter
