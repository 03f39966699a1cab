import AnnotatedZig.Text.Number
import AnnotatedZig.Text.Quoted

/-!
# The words of a command line

Each word is told apart by itself: a plain word, the marker after which all words are plain, or an
option. A switch stands alone; a setting takes a value. A long option may be cut short as long as one
option begins with it, and a value may be attached to it behind an equals sign; to a short option a
value is attached directly. A word that looks like a negative number or holds a space is plain rather
than an unknown option.
-/

set_option autoImplicit false

namespace AnnotatedZig.Command

inductive Switch where
  | help | json
  deriving DecidableEq

inductive Setting where
  | file | line | output | logLevel
  deriving DecidableEq

inductive Flag where
  | switch (s : Switch)
  | setting (s : Setting)
  deriving DecidableEq

namespace Flag

def all : List Flag :=
  [switch .help, setting .file, setting .line, setting .output, switch .json, setting .logLevel]

def spellings : Flag → List String
  | switch .help => ["-h", "--help"]
  | switch .json => ["--json"]
  | setting .file => ["--file"]
  | setting .line => ["--line"]
  | setting .output => ["-o", "--output"]
  | setting .logLevel => ["--log-level"]

def label (f : Flag) : String := "/".intercalate f.spellings

/-- Every spelling with its option, in the order in which they are listed to the user. -/
def table : List (String × Flag) := all.flatMap fun f => f.spellings.map fun s => (s, f)

end Flag

inductive UsageError where
  | ambiguous (word : String) (candidates : List String)
  | missingValue (setting : Setting)
  | needlessValue (switch : Switch) (value : String)
  | badLine (value : String)
  | noSource
  | unrecognized (words : List String)
  | negativeLine
  deriving DecidableEq

namespace UsageError

def ofFlag (f : Flag) (fault : String) : String := "argument " ++ f.label ++ ": " ++ fault

def message : UsageError → String
  | ambiguous word candidates =>
    "ambiguous option: " ++ word ++ " could match " ++ ", ".intercalate candidates
  | missingValue s => ofFlag (.setting s) "expected one argument"
  | needlessValue s value =>
    ofFlag (.switch s) ("ignored explicit argument " ++ Text.quoted value)
  | badLine value => ofFlag (.setting .line) ("invalid int value: " ++ Text.quoted value)
  | noSource => "the following arguments are required: source"
  | unrecognized words => "unrecognized arguments: " ++ " ".intercalate words
  | negativeLine => "--line must be non-negative"

end UsageError

inductive Stop where
  | help
  | misuse (e : UsageError)
  | noLine
  deriving DecidableEq

def usageText : String :=
  "usage: zignifc [-h] [--file FILE] [--line LINE] [-o OUTPUT] [--json]\n" ++
  "               [--log-level LOG_LEVEL]\n" ++
  "               source\n"

def helpText : String :=
  usageText ++
  "\nzignifc: extract NIF declarations from annotated Zig source\n" ++
  "\npositional arguments:\n" ++
  "  source                Annotated Zig source file\n" ++
  "\noptions:\n" ++
  "  -h, --help            show this help message and exit\n" ++
  "  --file FILE           File name to report in diagnostics (default: SOURCE)\n" ++
  "  --line LINE           Line number of the first line of SOURCE inside its\n" ++
  "                        host file (default: 1)\n" ++
  "  -o OUTPUT, --output OUTPUT\n" ++
  "                        Write the reconstructed Zig code to this path\n" ++
  "  --json                Emit declarations or diagnostics as JSON\n" ++
  "  --log-level LOG_LEVEL\n" ++
  "                        Logging level (default: $ZIGNIF_LOG_LEVEL or WARNING)\n"

/-- What a word may be. A value that stands in the same word as its option is attached to it. -/
inductive Kind where
  | plain
  | marker
  | unknown
  | flag (f : Flag) (short : Bool) (attached : Option (List Char))
  deriving DecidableEq

structure Word where
  written : String
  kind : Kind
  deriving DecidableEq

namespace Word

def splitEquals (s : List Char) : List Char × Option (List Char) :=
  match s.dropWhile (· ≠ '=') with
  | [] => (s, none)
  | _::value => (s.takeWhile (· ≠ '='), some value)

def isShort (spelling : String) : Bool := !"--".toList.isPrefixOf spelling.toList

def entryKind (e : String × Flag) (attached : Option (List Char)) : Kind :=
  .flag e.2 (isShort e.1) attached

def isExactly (s : List Char) (e : String × Flag) : Bool := e.1.toList = s

/-- The options that an abbreviated word may mean, by their full spelling, in the order of the
table. -/
def candidates (s : List Char) : List (String × Kind) :=
  if "--".toList.isPrefixOf s then
    let (start, attached) := splitEquals s
    let entries := Flag.table.filter fun e => start.isPrefixOf e.1.toList
    entries.map fun e => (e.1, entryKind e attached)
  else
    Flag.table.filterMap fun e =>
      if isExactly (s.take 2) e then some (e.1, entryKind e (some (s.drop 2)))
      else if s.isPrefixOf e.1.toList then some (e.1, entryKind e none)
      else none

/-- Digits with at most one point, which must have digits after it, behind a minus sign. One line
feed may end the word. -/
def looksNegative (s : List Char) : Bool :=
  match s with
  | '-' :: r =>
    let body := if r.getLast? = some '\n' then r.dropLast else r
    match body.dropWhile Text.isDecimalDigit with
    | [] => body ≠ []
    | '.' :: fraction => fraction ≠ [] && fraction.all Text.isDecimalDigit
    | _ => false
  | _ => false

def inFull? (s : List Char) : Option Kind :=
  match Flag.table.find? (isExactly s) with
  | some e => some (entryKind e none)
  | none =>
    match splitEquals s with
    | (_, none) => none
    | (start, some v) => (Flag.table.find? (isExactly start)).map fun e => entryKind e (some v)

def unlistedKind (s : List Char) : Kind :=
  if looksNegative s || ' ' ∈ s then .plain else .unknown

def kindOf (written : String) : Except UsageError Kind :=
  match written.toList with
  | '-' :: c::s =>
    match inFull? ('-' :: c::s) with
    | some k => .ok k
    | none =>
      match candidates ('-' :: c::s) with
      | [] => .ok (unlistedKind ('-' :: c::s))
      | [(_, k)] => .ok k
      | ks => .error (.ambiguous written (ks.map Prod.fst))
  | _ => .ok .plain

def ofStrings : List String → Except UsageError (List Word)
  | [] => .ok []
  | w::ws =>
    if w = "--" then .ok (⟨w, .marker⟩ :: ws.map fun v => ⟨v, .plain⟩)
    else do
      let k ← kindOf w
      let rest ← ofStrings ws
      return ⟨w, k⟩ :: rest

end Word

end AnnotatedZig.Command
