import AnnotatedZig.Declaration

/-!
# JSON in plain ASCII

Values of JSON without fractions. An object keeps its fields in the order given. Written text is
ASCII: every other character is given by its UTF-16 units. A value that holds a number of too many
digits has no written text. Declarations and diagnostics are written as records.
-/

set_option autoImplicit false

namespace AnnotatedZig

inductive Json where
  | null
  | bool (b : Bool)
  | int (n : Int)
  | text (s : String)
  | array (items : List Json)
  | object (fields : List (String × Json))

namespace Json

def ofOption {α : Type} (f : α → Json) : Option α → Json
  | none => null
  | some a => f a

def escapeUnit (n : Nat) : List Char := '\\' :: 'u' :: Text.hex 4 n

/-- A character in a written text. One above the first plane is a pair of units. -/
def escapeChar (c : Char) : List Char :=
  if c = '\x22' then ['\\', c]
  else if c = '\\' then ['\\', c]
  else if c = '\n' then ['\\', 'n']
  else if c = '\r' then ['\\', 'r']
  else if c = '\t' then ['\\', 't']
  else if c = '\x08' then ['\\', 'b']
  else if c = '\x0c' then ['\\', 'f']
  else if 32 ≤ c.toNat ∧ c.toNat ≤ 126 then [c]
  else if c.toNat < 65536 then escapeUnit c.toNat
  else escapeUnit (55296 + (c.toNat-65536)/1024) ++ escapeUnit (56320 + (c.toNat-65536)%1024)

def quote (s : String) : String :=
  String.ofList ('\x22' :: s.toList.flatMap escapeChar ++ ['\x22'])

mutual

def render? : Json → Option String
  | null => some "null"
  | bool b => some (if b then "true" else "false")
  | int n => Text.printed? n
  | text s => some (quote s)
  | array items => (renderItems? items).map fun ss => "[" ++ ", ".intercalate ss ++ "]"
  | object fields =>
    (renderFields? fields).map fun ss => "\x7b" ++ ", ".intercalate ss ++ "\x7d"

def renderItems? : List Json → Option (List String)
  | [] => some []
  | j::js => do
    let s ← j.render?
    let rest ← renderItems? js
    return s :: rest

def renderFields? : List (String × Json) → Option (List String)
  | [] => some []
  | (name, j)::fs => do
    let s ← j.render?
    let rest ← renderFields? fs
    return (quote name ++ ": " ++ s) :: rest

end

end Json

def Text.json (t : Text) : Json := .text (String.ofList t)

def ZigType.json (t : ZigType) : Json := Text.json t.spelling

def Declaration.json (d : Declaration) : Json :=
  .object [("name", Text.json d.name), ("arity", .int d.arity),
    ("params", .array (d.params.map ZigType.json)), ("retval", d.ret.json),
    ("env", .ofOption ZigType.json d.env),
    ("opts", .array (d.options.map fun o => Text.json o.spelling)),
    ("doc", .ofOption Text.json d.doc),
    ("line", .ofOption (fun l => .int l.line) d.loc)]

def Diagnostic.json (d : Diagnostic) : Json :=
  .object [("phase", .ofOption .text d.phase), ("message", .text d.message),
    ("severity", .text d.severity), ("file", .ofOption .text d.span.file),
    ("line", .ofOption .int d.span.line), ("column", .ofOption .int d.span.column),
    ("notes", .array (d.notes.map .text))]

namespace Command

def successRecord (ds : List Declaration) : Json :=
  .object [("exit_code", .int 0), ("declarations", .array (ds.map Declaration.json))]

def failureRecord (d : Diagnostic) : Json :=
  .object [("exit_code", .int 1), ("diagnostics", .array [d.json])]

end Command

end AnnotatedZig
