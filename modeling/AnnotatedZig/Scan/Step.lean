import AnnotatedZig.Scan.Context

/-!
# One line of a scan

A line is documentation, a function header, or neither. Documentation joins the block; a header
ends the block, with a declaration if a tag waits for it; any other line ends the block and leaves
a waiting tag without its header.
-/

set_option autoImplicit false

namespace AnnotatedZig.Context

/-- A documentation text joins the text so far. An empty one breaks a paragraph, yet opens none. -/
def addDoc (text : Text) : Option Text → Option Text
  | none => if text = [] then none else some text
  | some d => some (d ++ '\n' :: text)

def hold (line : SourceLine) (c : Context) : Context := { c with held := c.held ++ [line] }

def takeDocText (text : Text) (line : SourceLine) (c : Context) : Progress :=
  { context := { c with doc := addDoc (Text.trim text) c.doc }.hold line }

/-- A tag line must be well formed, find no other tag waiting, and have an arity of a readable
length, in this order. -/
def takeTag (line : SourceLine) (c : Context) : Progress :=
  match Line.tag? (Text.terminated line.text) with
  | none => .fail c (.defect (.malformedTag (Text.trim line.text)) line.loc)
  | some l =>
    match c.pending with
    | some p => .fail c p.missingHeader
    | none =>
      match Tag.ofLine l with
      | .error n => .fail c (.numeralTooLong n)
      | .ok tag =>
        { context := { c with pending := some ⟨tag, line.loc⟩ }.hold line
          events := [.pending ⟨tag, line.loc⟩] }

def takeDoc? (line : SourceLine) (c : Context) : Option Progress :=
  (Line.doc? (Text.terminated line.text)).map fun text =>
    if Line.isTagText text then c.takeTag line else c.takeDocText text line

def takeParams : List Text → Context → Context × Option Text
  | [], c => (c, none)
  | t::ts, c =>
    match ZigType.read? t with
    | none => (c, some t)
    | some p => takeParams ts { c with params := c.params ++ [p] }

def declare (p : Pending) (ret : ZigType) (line : SourceLine) (c : Context) : Progress :=
  let split := ZigType.splitEnv c.params
  if split.2.length = p.tag.arity then
    let d : Declaration :=
      { name := p.tag.name, arity := p.tag.arity, params := split.2, ret := ret, doc := c.doc
        options := p.tag.options, env := split.1, loc := some line.loc }
    { context := c.reset, items := [.text line.text, .declaration d],
      events := [.declared d line.loc] }
  else .fail c (.defect (.arityMismatch p.tag.arity split.2.length) line.loc)

/-- A header below a waiting tag must bear its name, and its types must be known. -/
def takeTagged (p : Pending) (h : Line.Header) (line : SourceLine) (c : Context) : Progress :=
  if h.name = p.tag.name then
    match takeParams h.paramTypes c with
    | (c, some t) => .fail c (.defect (.unsupportedParam p.tag.name t) line.loc)
    | (c, none) =>
      match ZigType.read? h.retType with
      | none => .fail c (.defect (.unsupportedReturn p.tag.name h.retType) line.loc)
      | some ret => declare p ret line { c with ret := some ret }
  else .fail c (.defect (.strayHeader p.tag.name h.name) line.loc)

def passThrough (line : SourceLine) (c : Context) : Progress :=
  c.release.andThen fun c => { context := c, items := [.text line.text] }

def takeHeader (h : Line.Header) (line : SourceLine) (c : Context) : Progress :=
  match c.pending with
  | some p => c.takeTagged p h line
  | none => { c.passThrough line with events := [.passing h.name line.loc] }

def takeOther (line : SourceLine) (c : Context) : Progress :=
  match c.pending with
  | some p => .fail c p.missingHeader
  | none => c.passThrough line

def step (line : SourceLine) (c : Context) : Progress :=
  match c.takeDoc? line with
  | some p => p
  | none =>
    match Line.header? (Text.terminated line.text) with
    | some h => c.takeHeader h line
    | none => c.takeOther line

/-- At the end of the source no tag may wait, and the last block is given back. -/
def finish (c : Context) : Progress :=
  match c.pending with
  | some p => .fail c p.missingHeader
  | none => c.release

def steps : List SourceLine → Context → Progress
  | [], c => { context := c }
  | l::ls, c => (c.step l).andThen (steps ls)

theorem steps_append (ls ms : List SourceLine) (c : Context) :
    steps (ls++ms) c = (steps ls c).andThen (steps ms) := by
  induction ls generalizing c with
  | nil => simp [steps, Progress.andThen]
  | cons l ls ih =>
    rw [List.cons_append, steps, steps, Progress.andThen_assoc]
    congr 1
    funext d
    exact ih d

def scan (code : Text) (start : Int) (c : Context) : Progress :=
  (steps (SourceLine.ofCode code c.file start) c).andThen finish

end AnnotatedZig.Context
