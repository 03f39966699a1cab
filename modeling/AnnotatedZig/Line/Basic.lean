import AnnotatedZig.Declaration

/-!
# The lines that a scan knows

Only the space U+0020 is skipped between the pieces of a line; a tab never is.

Three slashes open a documentation line; a fourth makes it an ordinary comment. The text is all
that follows, its spaces included; a mark with nothing behind it has the empty text, but a mark with
one space behind it opens no documentation.

A tag is a documentation line `/// nif: NAME/ARITY OPTION …`. The line form keeps the digits as
they were written; a tag proper has the number, which may be written with at most 4300 digits.

A header is `fn NAME(NAME: TYPE, …) TYPE` with the body, if it opens on the same line, behind the
first brace. Types are kept as written, so that the spaces around them belong to them; yet one space
alone is no type.
-/

set_option autoImplicit false

namespace AnnotatedZig

namespace Line

/-- The one line that `text` holds. A line feed must end it, and only spaces may follow. -/
def body? (text : Text) : Option Text :=
  match text.dropWhile (· ≠ '\n') with
  | [] => none
  | _::rest => if rest.all (· = ' ') then some (text.takeWhile (· ≠ '\n')) else none

def skipSpaces (s : Text) : Text := s.dropWhile (· = ' ')

def word? : Text → Text → Option Text
  | [], s => some s
  | _::_, [] => none
  | w::ws, c::s => if w = c then word? ws s else none

def run? (p : Char → Bool) (s : Text) : Option (Text × Text) :=
  if s.takeWhile p = [] then none else some (s.takeWhile p, s.dropWhile p)

/-- A free text of a line: what documents, or what spells a type. One space alone is not a text, and
a line that has it in the place of one is of another form. -/
def isText (s : Text) : Bool := s ≠ [] && s ≠ [' ']

def isNameChar (c : Char) : Bool := c.isAlphanum || c = '_'

def name? (s : Text) : Option (Text × Text) := run? isNameChar (skipSpaces s)

def mark? (c : Char) (s : Text) : Option Text := word? [c] (skipSpaces s)

theorem word?_eq_some_iff (w s r : Text) : word? w s = some r ↔ s = w ++ r := by
  induction w generalizing s with
  | nil => simp [word?, eq_comm]
  | cons c w ih =>
    cases s with
    | nil => simp [word?]
    | cons d s => by_cases h : c = d <;> simp [word?, h, ih, eq_comm]

def afterDocMark? (body : Text) : Option Text :=
  match word? "///".toList (skipSpaces body) with
  | none => none
  | some r => if r.head? = some '/' then none else some r

def docText? (body : Text) : Option Text :=
  (afterDocMark? body).bind fun r => if r = [] || isText r then some r else none

def doc? (text : Text) : Option Text := (body? text).bind docText?

def isTagText (text : Text) : Bool := "nif:".toList.isPrefixOf (Text.trim text)

structure Tag where
  name : Text
  digits : Text
  options : List ExecOption
  deriving DecidableEq

/-- What may follow the arity: options, each after a space. -/
def options? (s : Text) : Option (List ExecOption) :=
  if s.head?.all (· = ' ') then (Text.words s).mapM ExecOption.ofSpelling? else none

def Tag.ofBody? (body : Text) : Option Tag := do
  let r ← afterDocMark? body
  let r ← word? "nif:".toList (skipSpaces r)
  let (name, r) ← name? r
  let r ← mark? '/' r
  let (digits, r) ← run? Char.isDigit (skipSpaces r)
  let options ← options? r
  return ⟨name, digits, options⟩

def tag? (text : Text) : Option Tag := (body? text).bind Tag.ofBody?

structure Param where
  name : Text
  type : Text
  deriving DecidableEq

structure Header where
  name : Text
  params : List Param
  ret : Text
  body : Text
  deriving DecidableEq

def Param.ofPiece? (piece : Text) : Option Param := do
  let (name, r) ← name? piece
  let r ← mark? ':' r
  if isText r then some ⟨name, r⟩ else none

def params? (inner : Text) : Option (List Param) :=
  if inner.all (· = ' ') then some [] else (Text.cut ',' inner).mapM Param.ofPiece?

def untilClose? (s : Text) : Option (Text × Text) :=
  match s.dropWhile (· ≠ ')') with
  | [] => none
  | _::r => some (s.takeWhile (· ≠ ')'), r)

def Header.ofBody? (body : Text) : Option Header := do
  let r ← word? "fn ".toList (skipSpaces body)
  let (name, r) ← name? r
  let r ← mark? '(' r
  let (inner, r) ← untilClose? r
  let params ← params? inner
  let (ret, body) ← run? (· ≠ '\x7b') r
  if isText ret then some ⟨name, params, ret, body⟩ else none

def header? (text : Text) : Option Header := (body? text).bind Header.ofBody?

def Header.paramTypes (h : Header) : List Text := h.params.map fun p => Text.trim p.type

def Header.retType (h : Header) : Text := Text.trim h.ret

end Line

structure Tag where
  name : Text
  arity : Nat
  options : List ExecOption
  deriving DecidableEq

def Tag.ofLine (l : Line.Tag) : Except Nat Tag :=
  (Text.readNumeral l.digits).map fun arity => ⟨l.name, arity, l.options⟩

end AnnotatedZig
