import AnnotatedZig.Text.Number

/-!
# Places in a source file

A located line is a line of text with the file and the number that a reader of that file would
give it. Numbers are integers: an excerpt may be numbered from anywhere, also from below zero. A span
is a place that may be known only in part, and a diagnostic is a message about a span. Where a line
number is too long to be printed, there is no text of its span, nor of a message about it.
-/

set_option autoImplicit false

namespace AnnotatedZig

structure Location where
  file : String
  line : Int
  deriving DecidableEq

structure SourceLine where
  text : Text
  loc : Location
  deriving DecidableEq

namespace SourceLine

def number (file : String) : Int → List Text → List SourceLine
  | _, [] => []
  | n, t::ts => ⟨t, file, n⟩ :: number file (n+1) ts

/-- The lines of `code`, numbered upward from `start`. -/
def ofCode (code : Text) (file : String) (start : Int) : List SourceLine :=
  number file start (Text.splitLines code)

theorem map_text_number (file : String) (n : Int) (ts : List Text) :
    (number file n ts).map text = ts := by
  induction ts generalizing n with
  | nil => rfl
  | cons t ts ih => simp [number, ih]

theorem map_text_ofCode (code : Text) (file : String) (start : Int) :
    (ofCode code file start).map text = Text.splitLines code :=
  map_text_number file start _

theorem flatten_text_ofCode (code : Text) (file : String) (start : Int) :
    ((ofCode code file start).map text).flatten = code := by
  rw [map_text_ofCode, Text.flatten_splitLines]

end SourceLine

structure Span where
  file : Option String := none
  line : Option Int := none
  column : Option Int := none
  deriving DecidableEq

namespace Span

def ofLocation (l : Location) : Span := { file := some l.file, line := some l.line }

def fileText (s : Span) : String :=
  match s.file with
  | none => "<unknown>"
  | some f => if f = "" then "<unknown>" else f

/-- The file and the line; an unnamed file is unknown, and an unknown line is left out. -/
def text? (s : Span) : Option String :=
  match s.line with
  | none => some s.fileText
  | some n => (Text.printed? n).map fun line => s.fileText ++ ":" ++ line

theorem text_ofLocation (l : Location) (named : l.file ≠ "") (h : Text.Prints l.line) :
    (ofLocation l).text? = some (l.file ++ ":" ++ toString l.line) := by
  simp [ofLocation, text?, fileText, named, Text.printed_of_prints _ h]

theorem text_isSome_ofLocation (l : Location) :
    (ofLocation l).text?.isSome = true ↔ Text.Prints l.line := by
  by_cases h : Text.Prints l.line
  · simp [ofLocation, text?, h, Text.printed_of_prints]
  · simp [ofLocation, text?, h, Text.printed_eq_none]

end Span

structure Diagnostic where
  message : String
  phase : Option String := none
  severity : String := "error"
  span : Span := {}
  notes : List String := []
  deriving DecidableEq

def Diagnostic.text? (d : Diagnostic) : Option String :=
  d.span.text?.map fun place => place ++ ": " ++ d.severity ++ ": " ++ d.message

structure LocatedError where
  description : String
  span : Span
  deriving DecidableEq

namespace LocatedError

def text? (e : LocatedError) : Option String :=
  e.span.text?.map fun place => place ++ ": " ++ e.description

def diagnostic (e : LocatedError) : Diagnostic :=
  { message := e.description, phase := some "parser", span := e.span }

end LocatedError

end AnnotatedZig
