/-
The command line: options, subcommands, and what the program does with them.

Arguments are taken from left to right.  The first mistake ends the reading,
and so does the first request for help or for the version.  Options may come
before and after the operand of their subcommand; an operand that begins with
a dash has to follow `--`.
-/
import WalkFilter.Json.Reader
import WalkFilter.Report.Check
import WalkFilter.Report.EdgeFilter
import WalkFilter.Report.TagFilter

namespace WalkFilter

namespace CommandLine

/-- The options of the program and of its subcommands. -/
inductive Flag where
  | help
  | version
  | verbose
  | quiet
  | json
  | tags
  | depth
  | minLevel
  | filterStart
  | offsetSequence
  | file
  | subgraph
deriving DecidableEq, Repr

namespace Flag

/-- The long name of an option. -/
def long : Flag → String
  | help => "help"
  | version => "version"
  | verbose => "verbose"
  | quiet => "quiet"
  | json => "json-mode"
  | tags => "tags"
  | depth => "depth"
  | minLevel => "min-level"
  | filterStart => "filter-start"
  | offsetSequence => "offset-sequence"
  | file => "file"
  | subgraph => "subgraph"

/-- The short name of an option, if it has one. -/
def short? : Flag → Option Char
  | help => some 'h'
  | version => some 'V'
  | verbose => some 'v'
  | quiet => some 'q'
  | tags => some 't'
  | depth => some 'd'
  | file => some 'f'
  | json | minLevel | filterStart | offsetSequence | subgraph => none

/-- Does a value belong to the option? -/
def takesValue : Flag → Bool
  | tags | depth | minLevel | file => true
  | help | version | verbose | quiet | json | filterStart | offsetSequence | subgraph => false

/-- May the option be given more than once? -/
def repeats (f : Flag) : Bool := f = tags

/-- The options that stand before the subcommand as well as after it. -/
def general : List Flag := [help, verbose, quiet, json]

end Flag

/-- The subcommands. -/
inductive Subcommand where
  | tags
  | edges
  | check
deriving DecidableEq, Repr

namespace Subcommand

/-- The subcommand of a name. -/
def ofName? : String → Option Subcommand
  | "tags" => some tags
  | "edges" => some edges
  | "check" => some check
  | _ => none

/-- The options of a subcommand. -/
def flags : Subcommand → List Flag
  | tags => Flag.general ++ [.tags, .depth, .minLevel, .filterStart, .offsetSequence]
  | edges => Flag.general ++ [.offsetSequence]
  | check => Flag.general ++ [.file, .subgraph]

/-- The number of operands of a subcommand. -/
def operands : Subcommand → Nat
  | tags | edges => 1
  | check => 0

end Subcommand

/-- What an argument turns out to be. -/
inductive Word where
  | option (f : Flag) (value : Option String)
  | operand (s : String)
  /-- an argument that has no meaning where it stands -/
  | mistake
deriving DecidableEq, Repr

/-- The words of an argument, and the option among them that waits for a value. -/
abbrev Words := List Word × Option Flag

/-- An argument of short options, such as `-qv` or `-d5`. -/
def shortWords (flags : List Flag) : List Char → Words
  | [] => ([], none)
  | c :: rest =>
    match flags.find? (·.short? = some c) with
    | none => ([.mistake], none)
    | some f =>
      if f.takesValue then
        match rest with
        | [] => ([], some f)
        | '=' :: value => ([.option f (some (String.ofList value))], none)
        | value => ([.option f (some (String.ofList value))], none)
      else
        let (words, waiting) := shortWords flags rest
        (.option f none :: words, waiting)

/-- An argument of a long option, such as `--depth` or `--depth=5`, without its dashes. -/
def longWords (flags : List Flag) (cs : List Char) : Words :=
  let name := String.ofList (cs.takeWhile (· ≠ '='))
  let value := match cs.dropWhile (· ≠ '=') with
    | [] => none
    | _ :: value => some (String.ofList value)
  match flags.find? (·.long = name) with
  | none => ([.mistake], none)
  | some f =>
    match f.takesValue, value with
    | true, some value => ([.option f (some value)], none)
    | true, none => ([], some f)
    | false, some _ => ([.mistake], none)
    | false, none => ([.option f none], none)

/-- Does an argument begin with a dash?  A dash alone is an ordinary argument. -/
def isDashed (arg : String) : Bool :=
  match arg.toList with
  | '-' :: _ :: _ => true
  | _ => false

/-- The words of one argument. -/
def words (flags : List Flag) (arg : String) : Words :=
  match arg.toList with
  | '-' :: '-' :: cs => longWords flags cs
  | '-' :: c :: cs => shortWords flags (c :: cs)
  | _ => ([.operand arg], none)

/-- The words of the arguments of a subcommand.  After `--` there are only operands. -/
def wordsOf (flags : List Flag) : List String → List Word
  | [] => []
  | "--" :: rest => rest.map .operand
  | arg :: rest =>
    match words flags arg, rest with
    | (ws, none), rest => ws ++ wordsOf flags rest
    | (ws, some _), [] => ws ++ [.mistake]
    | (ws, some f), value :: rest =>
      if isDashed value then ws ++ [.mistake]
      else ws ++ .option f (some value) :: wordsOf flags rest

/-- A 64-bit number in decimal, possibly after a plus sign. -/
def number? (s : String) : Option UInt64 :=
  let digits := match s.toList with
    | '+' :: rest => rest
    | cs => cs
  if !digits.isEmpty && digits.all Char.isDigit then (Json.natural (Json.decimalValue digits)).word?
  else none

/-- Is the value one that the option can take? -/
def Flag.accepts (f : Flag) (value : String) : Bool :=
  match f with
  | depth | minLevel => (number? value).isSome
  | file => value ≠ ""
  | _ => true

/-- The options and operands that have been given, in order. -/
structure Given where
  options : List (Flag × Option String) := []
  operands : List String := []
deriving DecidableEq, Repr

namespace Given

/-- Is the option among the given ones? -/
def has (g : Given) (f : Flag) : Bool := g.options.any (·.1 = f)

/-- The values of an option. -/
def values (g : Given) (f : Flag) : List String :=
  g.options.filterMap fun o => if o.1 = f then o.2 else none

/-- The number that an option gives, if it is given. -/
def number (g : Given) (f : Flag) (default : UInt64) : UInt64 :=
  ((g.values f).head?.bind number?).getD default

end Given

/-- How the program prints. -/
structure Settings where
  verbose : Bool
  quiet : Bool
  json : Bool
deriving DecidableEq, Repr

/-- What the program is to report on. -/
inductive Question where
  | tags (q : TagFilterQuery)
  | edges (q : EdgeFilterQuery)
  | check (q : CheckQuery)
deriving DecidableEq, Repr

/-- What the arguments ask for. -/
inductive Order where
  | answer (s : Settings) (q : Question)
  | version
  | help
  /-- the arguments ask for nothing that the program does -/
  | mistaken
deriving DecidableEq, Repr

/-- Collect words.  An option that may not be repeated, a value that its option cannot take and
an operand too many are mistakes. -/
def collect (operands : Nat) : List Word → Given → Except Order Given
  | [], g => .ok g
  | .mistake :: _, _ => .error .mistaken
  | .option .help _ :: _, _ => .error .help
  | .option .version _ :: _, _ => .error .version
  | .option f value :: rest, g =>
    if (g.has f && !f.repeats) || !value.all f.accepts then .error .mistaken
    else collect operands rest { g with options := g.options ++ [(f, value)] }
  | .operand s :: rest, g =>
    if g.operands.length < operands then
      collect operands rest { g with operands := g.operands ++ [s] }
    else .error .mistaken

/-- The question of a subcommand.  The filter of a tag or edge query and the file of a check have
to be given. -/
def Subcommand.question? (c : Subcommand) (g : Given) : Option Question :=
  match c with
  | tags => g.operands.head?.map fun filter => .tags
      { filter
        probe := if g.has .tags then some ((g.values .tags).flatMap (Text.split ',')) else none
        depth := g.number .depth 1
        minLevel := g.number .minLevel 0
        filterStart := g.has .filterStart
        offset := g.has .offsetSequence }
  | edges => g.operands.head?.map fun filter => .edges ⟨filter, g.has .offsetSequence⟩
  | check => (g.values .file).head?.map fun file => .check ⟨file, g.has .subgraph⟩

/-- The arguments before the subcommand, and those from it on. -/
def splitAtOperand (args : List String) : List String × List String :=
  args.span fun arg => isDashed arg && arg ≠ "--"

/-- What the arguments of a program ask for. -/
def order (args : List String) : Order :=
  let (before, rest) := splitAtOperand args
  match collect 0 (wordsOf (.version :: Flag.general) before) {} with
  | .error o => o
  | .ok outer =>
    match rest with
    | [] => .mistaken
    | ["help"] => .help
    | ["help", name] => if name = "help" || (Subcommand.ofName? name).isSome then .help else .mistaken
    | name :: rest =>
      match Subcommand.ofName? name with
      | none => .mistaken
      | some c =>
        match collect c.operands (wordsOf c.flags rest) {} with
        | .error o => o
        | .ok inner =>
          match c.question? inner with
          | none => .mistaken
          | some q =>
            .answer
              { verbose := outer.has .verbose || inner.has .verbose
                quiet := outer.has .quiet || inner.has .quiet
                json := outer.has .json || inner.has .json }
              q

/-- What a run of the program does. -/
structure Outcome where
  exitCode : UInt32
  output : String
  log : List Notice
  /-- what to say to a user whose order cannot be carried out -/
  complaint : Option String
deriving DecidableEq

/-- The name of the program with its version. -/
def nameAndVersion (mark : String) : String := "tagpath " ++ mark ++ "0.1.0"

/-- The line that stands before a report, unless it is not wanted or the report is a value. -/
def banner (s : Settings) : String :=
  if s.quiet || s.json then ""
  else nameAndVersion "v" ++ " - tag and edge path filters\n\n"

/-- How to use the program. -/
def usage : String :=
  "Usage: tagpath [OPTIONS] tags <FILTER> [-t TAGS] [-d DEPTH] [--min-level LEVEL] "
    ++ "[--filter-start] [--offset-sequence]\n"
    ++ "       tagpath [OPTIONS] edges <FILTER> [--offset-sequence]\n"
    ++ "       tagpath [OPTIONS] check -f <FILE> [--subgraph]\n"
    ++ "Options: -v, --verbose; -q, --quiet; --json-mode; -h, --help; -V, --version\n"

/-- The file that an order needs. -/
def Order.file? : Order → Option String
  | .answer _ (.check q) => some q.file
  | _ => none

/-- What the log is told about a question. -/
def Question.notices (content : Option ByteArray) : Question → List Notice
  | .tags _ => []
  | .edges q => q.itinerary.notices
  | .check q => q.notices content

/-- The report on a question. -/
def Question.report (content : Option ByteArray) : Question → Except RequestError Report
  | .tags q => .ok q.report
  | .edges q => .ok q.report
  | .check q => q.report content

/-- Carry out an order, given the bytes of the file that it needs if there is such a file. -/
def Order.outcome (content : Option ByteArray) : Order → Outcome
  | .answer s q =>
    match q.report content with
    | .ok r => ⟨0, banner s ++ r.print s.json, q.notices content, none⟩
    | .error e => ⟨1, banner s, q.notices content, some ("Error: " ++ e.message)⟩
  | .version => ⟨0, nameAndVersion "" ++ "\n", [], none⟩
  | .help => ⟨0, usage, [], none⟩
  | .mistaken => ⟨2, "", [], some usage⟩

end CommandLine

end WalkFilter
