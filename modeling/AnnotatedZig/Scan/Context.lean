import AnnotatedZig.Line.Basic

/-!
# The state of a scan

Between two lines a scan remembers the tag that still waits for its header, the documentation so
far, what a header has given so far, and the lines of the block, which are held back until it is
known whether they belong to a declaration. `Progress` is what some lines add to it: the items
given out, the events noted, and the failure that stopped it, if one did.

A failure is a defect of the source at some line, or a tag whose arity has too many digits to be read,
which has no line. What a failure is told as is an error at its line; but where the number of that line
has too many digits to be printed, the error cannot be told, and that is the fault instead.
-/

set_option autoImplicit false

namespace AnnotatedZig

inductive Defect where
  | malformedTag (line : Text)
  | missingHeader (nif : Text)
  | strayHeader (nif found : Text)
  | unsupportedParam (nif type : Text)
  | unsupportedReturn (nif type : Text)
  | arityMismatch (expected found : Nat)
  deriving DecidableEq

def Defect.description : Defect → String
  | malformedTag line => "malformed nif declaration: " ++ String.ofList line
  | missingHeader nif => "missing function header for nif " ++ String.ofList nif
  | strayHeader nif found =>
    "nif docstring expecting \"" ++ String.ofList nif ++
      "\" not adjacent to function (next to \"" ++ String.ofList found ++ "\")"
  | unsupportedParam nif type =>
    "nif \"" ++ String.ofList nif ++ "\" has unsupported parameter type " ++ String.ofList type
  | unsupportedReturn nif type =>
    "nif \"" ++ String.ofList nif ++ "\" has unsupported retval type " ++ String.ofList type
  | arityMismatch expected found =>
    "mismatched arity declaration, expected " ++ toString expected ++ ", got " ++ toString found

inductive Failure where
  | defect (d : Defect) (loc : Location)
  | numeralTooLong (digits : Nat)
  deriving DecidableEq

def Defect.error (d : Defect) (loc : Location) : LocatedError :=
  ⟨d.description, Span.ofLocation loc⟩

/-- What an extraction is given up with. -/
inductive Raised where
  | located (e : LocatedError)
  | number (fault : Text.NumberFault)
  deriving DecidableEq

def LocatedError.raised (e : LocatedError) : Raised :=
  if e.text?.isSome then .located e else .number .unprintable

def Failure.raised : Failure → Raised
  | defect d loc => (d.error loc).raised
  | numeralTooLong n => .number (.unreadable n)

theorem Failure.raised_defect (d : Defect) (loc : Location) :
    (defect d loc).raised =
      if Text.Prints loc.line then .located (d.error loc) else .number .unprintable := by
  have htext : (d.error loc).text?.isSome = true ↔ Text.Prints loc.line := by
    rw [LocatedError.text?, Option.isSome_map]
    exact Span.text_isSome_ofLocation loc
  by_cases h : Text.Prints loc.line
  · rw [raised, LocatedError.raised, if_pos (htext.mpr h), if_pos h]
  · rw [raised, LocatedError.raised, if_neg (mt htext.mp h), if_neg h]

/-- A tag that waits for the header it announces, with the line that it stands on. -/
structure Pending where
  tag : Tag
  loc : Location
  deriving DecidableEq

def Pending.missingHeader (p : Pending) : Failure := .defect (.missingHeader p.tag.name) p.loc

structure Context where
  file : String
  pending : Option Pending := none
  doc : Option Text := none
  params : List ZigType := []
  ret : Option ZigType := none
  held : List SourceLine := []
  deriving DecidableEq

inductive Item where
  | text (t : Text)
  | declaration (d : Declaration)
  deriving DecidableEq

namespace Item

def text? : Item → Option Text
  | text t => some t
  | declaration _ => none

def declaration? : Item → Option Declaration
  | text _ => none
  | declaration d => some d

end Item

inductive Event where
  | pending (p : Pending)
  | declared (d : Declaration) (loc : Location)
  | passing (name : Text) (loc : Location)
  deriving DecidableEq

namespace Event

def loc : Event → Location
  | pending p => p.loc
  | declared _ l => l
  | passing _ l => l

def note : Event → String
  | pending p => "nif " ++ String.ofList p.tag.name ++ "/" ++ toString p.tag.arity ++ " pending"
  | declared d _ => "nif " ++ String.ofList d.signature
  | passing name _ => "passing through fn " ++ String.ofList name

def text? (e : Event) : Option String :=
  (Text.printed? e.loc.line).map fun line => e.loc.file ++ ":" ++ line ++ ": " ++ e.note

end Event

structure Progress where
  context : Context
  items : List Item := []
  events : List Event := []
  failure : Option Failure := none
  deriving DecidableEq

namespace Progress

def fail (c : Context) (f : Failure) : Progress := { context := c, failure := some f }

/-- Goes on with `next` unless the scan has failed. -/
def andThen (p : Progress) (next : Context → Progress) : Progress :=
  match p.failure with
  | some _ => p
  | none =>
    let q := next p.context
    { q with items := p.items ++ q.items, events := p.events ++ q.events }

theorem andThen_of_failure (p : Progress) (next : Context → Progress) (f : Failure)
    (h : p.failure = some f) : p.andThen next = p := by
  simp [andThen, h]

theorem andThen_of_none (p : Progress) (next : Context → Progress) (h : p.failure = none) :
    p.andThen next = { next p.context with
      items := p.items ++ (next p.context).items
      events := p.events ++ (next p.context).events } := by
  simp [andThen, h]

theorem andThen_context (p : Progress) (next : Context → Progress) (h : p.failure = none) :
    (p.andThen next).context = (next p.context).context := by
  rw [andThen_of_none p next h]

theorem andThen_items (p : Progress) (next : Context → Progress) (h : p.failure = none) :
    (p.andThen next).items = p.items ++ (next p.context).items := by
  rw [andThen_of_none p next h]

theorem andThen_assoc (p : Progress) (f g : Context → Progress) :
    (p.andThen f).andThen g = p.andThen fun c => (f c).andThen g := by
  cases hp : p.failure with
  | some e => rw [andThen_of_failure p f e hp, andThen_of_failure p g e hp,
      andThen_of_failure p _ e hp]
  | none =>
    rw [andThen_of_none p f hp, andThen_of_none p _ hp]
    cases hf : (f p.context).failure with
    | some e => simp [andThen, hf]
    | none => simp [andThen, hf]

end Progress

namespace Context

/-- Gives back the held lines and forgets the block, but not a tag that waits. -/
def release (c : Context) : Progress :=
  { context := { c with doc := none, params := [], ret := none, held := [] }
    items := c.held.map fun l => .text l.text }

def reset (c : Context) : Context := { file := c.file }

end Context

end AnnotatedZig
