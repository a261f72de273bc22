/-
Tables under construction.

A TOML document is a list of statements, and each changes the tables made by
the ones before it.  No statement may define again what another has defined:
for that a table remembers how it came to be.  A table that is only implied
by a header further down belongs to the first header or dotted key that
defines it.
-/
import WalkFilter.Json.Value

namespace WalkFilter

namespace Toml

/-- How a table came to be. -/
inductive Origin where
  /-- it was written between braces or has a header of its own -/
  | declared
  /-- it lies on the way to a table with a header -/
  | implied
  /-- it lies on the way of a dotted key, which defines it -/
  | dotted
deriving DecidableEq

mutual

/-- What a key of a table stands for. -/
inductive Entry where
  | value (v : Json)
  | table (t : Table)
  /-- the tables of headers in double brackets: the last one, and those before it in reverse -/
  | tables (last : Table) (before : List Table)

/-- A table: how it came to be, and its entries. -/
inductive Table where
  | mk (origin : Origin) (entries : List (String × Entry))

end

namespace Table

def origin : Table → Origin
  | mk origin _ => origin

def entries : Table → List (String × Entry)
  | mk _ entries => entries

/-- Has the table been defined by a dotted key? -/
def isDotted (t : Table) : Bool := t.origin = .dotted

/-- The table without entries. -/
def empty (origin : Origin) : Table := mk origin []

/-- What a key stands for. -/
def get? (t : Table) (key : String) : Option Entry := t.entries.lookup key

/-- Let a key stand for something else, or for something at all. -/
def put (t : Table) (key : String) (e : Entry) : Table :=
  mk t.origin <|
    if (t.get? key).isSome then t.entries.map fun m => if m.1 = key then (key, e) else m
    else t.entries ++ [(key, e)]

/-- A table on the way of a header or a dotted key.  A header passes through every table and
leaves it as it is.  A dotted key defines the tables that it passes through, so it takes over an
implied one and does not pass through a declared one. -/
def onWay? (made : Origin) : Table → Option Table
  | mk origin entries =>
    match made, origin with
    | .dotted, .declared => none
    | .dotted, _ => some (mk .dotted entries)
    | _, _ => some (mk origin entries)

/-- Change the table to which a path leads.  Tables that are missing on the way are made, and
nothing passes through a value. -/
def changeAt (made : Origin) (change : Table → Option Table) : List String → Table → Option Table
  | [], t => change t
  | key :: rest, t =>
    match t.get? key with
    | none => (changeAt made change rest (empty made)).map fun sub => t.put key (.table sub)
    | some (.table sub) =>
      ((onWay? made sub).bind (changeAt made change rest)).map fun sub => t.put key (.table sub)
    | some (.tables last before) =>
      (changeAt made change rest last).map fun last => t.put key (.tables last before)
    | some (.value _) => none

/-- Give a key that stands for nothing yet a value.  A dotted key adds to tables that dotted keys
have defined, and to no others. -/
def define? (t : Table) (path : List String) (key : String) (v : Json) : Option Table :=
  t.changeAt .dotted
    (fun t =>
      if path.isEmpty == t.isDotted || (t.get? key).isSome then none
      else some (t.put key (.value v)))
    path

/-- The header of a table: it is new, or so far it was implied only. -/
def declare? (t : Table) (path : List String) (key : String) : Option Table :=
  t.changeAt .implied
    (fun t =>
      match t.get? key with
      | none => some (t.put key (.table (empty .declared)))
      | some (.table (mk .implied entries)) => some (t.put key (.table (mk .declared entries)))
      | _ => none)
    path

/-- A header in double brackets: one more table under the same key. -/
def append? (t : Table) (path : List String) (key : String) : Option Table :=
  t.changeAt .implied
    (fun t =>
      match t.get? key with
      | none => some (t.put key (.tables (empty .declared) []))
      | some (.tables last before) =>
        some (t.put key (.tables (empty .declared) (last :: before)))
      | _ => none)
    path

end Table

mutual

/-- An entry as a value. -/
def Entry.toJson : Entry → Json
  | .value v => v
  | .table t => t.toJson
  | .tables last before => .array (tablesToJson before [last.toJson])

/-- A table as an object. -/
def Table.toJson : Table → Json
  | .mk _ entries => .object (entriesToJson entries)

/-- The tables that come before some others, these in reverse, and then the others. -/
def tablesToJson : List Table → List Json → List Json
  | [], others => others
  | t :: before, others => tablesToJson before (t.toJson :: others)

/-- The entries of a table as members of an object. -/
def entriesToJson : List (String × Entry) → List (String × Json)
  | [] => []
  | (key, e) :: rest => (key, e.toJson) :: entriesToJson rest

end

end Toml

end WalkFilter
