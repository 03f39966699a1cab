import AnnotatedZig.Scan.Step
import AnnotatedZig.Extract
import Mathlib.Data.List.Basic

/-!
# Blocks

Documentation lines belong to the line below them. The lines of a source text therefore fall into
blocks: a run of documentation lines, as long as it can be, and the line that ends it, which is no
documentation line and may be missing at the end of the source. This module says, with no scan in
sight, what a block declares and what is wrong with one that declares nothing though it is tagged.
-/

set_option autoImplicit false

namespace AnnotatedZig

namespace Line

def isDoc (line : Text) : Bool := (doc? (Text.terminated line)).isSome

def isTag (line : Text) : Bool := (doc? (Text.terminated line)).any isTagText

def remark (line : Text) : Text := Text.trim ((doc? (Text.terminated line)).getD [])

theorem isDoc_of_isTag (line : Text) (h : isTag line = true) : isDoc line = true := by
  obtain ⟨text, ht, -⟩ := (Option.any_eq_true _ _).mp h
  simp [isDoc, ht]

end Line

namespace SourceLine

def isDoc (l : SourceLine) : Bool := Line.isDoc l.text

def isTag (l : SourceLine) : Bool := Line.isTag l.text

def tag? (l : SourceLine) : Option Line.Tag := Line.tag? (Text.terminated l.text)

def header? (l : SourceLine) : Option Line.Header := Line.header? (Text.terminated l.text)

theorem isDoc_of_isTag (l : SourceLine) (h : l.isTag = true) : l.isDoc = true :=
  Line.isDoc_of_isTag l.text h

end SourceLine

/-- Remarks make one documentation text, a line each. It begins with the first that is not empty;
with none there is no documentation. -/
def documentation (remarks : List Text) : Option Text :=
  match remarks.dropWhile (· = []) with
  | [] => none
  | r::rs => some (Text.joinWith ['\n'] (r::rs))

structure Block where
  docs : List SourceLine
  ending : Option SourceLine

namespace Block

def addDoc (l : SourceLine) : List Block → List Block
  | [] => [⟨[l], none⟩]
  | b::bs => ⟨l::b.docs, b.ending⟩::bs

/-- The blocks that the lines fall into; the last one has no ending. -/
def cut : List SourceLine → List Block
  | [] => [⟨[], none⟩]
  | l::ls => if l.isDoc then addDoc l (cut ls) else ⟨[], some l⟩ :: cut ls

def ofCode (code : Text) (file : String) (start : Int) : List Block :=
  cut (SourceLine.ofCode code file start)

def lines (b : Block) : List SourceLine := b.docs ++ b.ending.toList

def tagged (b : Block) : Bool := b.docs.any SourceLine.isTag

def remarks (ls : List SourceLine) : List Text :=
  (ls.filter fun l => !l.isTag).map fun l => Line.remark l.text

/-- What stays of the block in the code: all of it, or only its ending if it is tagged. -/
def kept (b : Block) : List Text :=
  if b.tagged then b.ending.toList.map SourceLine.text else b.lines.map SourceLine.text

/-- What the documentation lines leave waiting for a header: nothing, or their one tag. -/
inductive Opens (ls : List SourceLine) : Option Pending → Prop
  | plain (h : ls.filter SourceLine.isTag = []) : Opens ls none
  | tag {l : SourceLine} {t : Line.Tag} (h : ls.filter SourceLine.isTag = [l])
      (form : l.tag? = some t) (length : t.digits.length ≤ Text.digitLimit) :
      Opens ls (some ⟨⟨t.name, Nat.ofDigitChars 10 t.digits 0, t.options⟩, l.loc⟩)

/-- How a tagged block reads: its one tag, and the header below, which agrees with the tag and
knows its types. -/
structure Reading (b : Block) where
  pending : Pending
  line : SourceLine
  header : Line.Header
  types : List ZigType
  ret : ZigType
  opens : Opens b.docs (some pending)
  ending_eq : b.ending = some line
  header_eq : line.header? = some header
  name_eq : header.name = pending.tag.name
  types_eq : header.paramTypes.map ZigType.read? = types.map some
  ret_eq : ZigType.read? header.retType = some ret
  arity_eq : (ZigType.splitEnv types).2.length = pending.tag.arity

def Reading.declaration {b : Block} (r : b.Reading) : Declaration :=
  { name := r.pending.tag.name, arity := r.pending.tag.arity
    params := (ZigType.splitEnv r.types).2, ret := r.ret, doc := documentation (remarks b.docs)
    options := r.pending.tag.options, env := (ZigType.splitEnv r.types).1
    loc := some r.line.loc }

def Declares (b : Block) (d : Declaration) : Prop := ∃ r : b.Reading, r.declaration = d

/-- A block that no scan objects to. -/
def Sound (b : Block) : Prop := b.tagged = true → Nonempty b.Reading

end Block

structure Complaint where
  message : String
  loc : Option Location
  deriving DecidableEq

def Failure.complaint : Failure → Complaint
  | .defect d loc => ⟨d.description, some loc⟩
  | .numeralTooLong n => ⟨Text.longNumeralMessage n, none⟩

namespace Block

def missingHeader (p : Pending) : Complaint :=
  ⟨"missing function header for nif " ++ String.ofList p.tag.name, some p.loc⟩

/-- What is wrong with the tag line `l` below the documentation lines `above`. -/
inductive TagFails (above : List SourceLine) (l : SourceLine) : Complaint → Prop
  | malformed (form : l.tag? = none) :
      TagFails above l
        ⟨"malformed nif declaration: " ++ String.ofList (Text.trim l.text), some l.loc⟩
  | second {t : Line.Tag} {p : Pending} (form : l.tag? = some t) (waits : Opens above (some p)) :
      TagFails above l (missingHeader p)
  | tooLong {t : Line.Tag} (form : l.tag? = some t) (waits : Opens above none)
      (length : Text.digitLimit < t.digits.length) :
      TagFails above l ⟨Text.longNumeralMessage t.digits.length, none⟩

/-- What is wrong with the ending of a block whose tag `p` waits for a header. -/
inductive EndingFails (p : Pending) : Option SourceLine → Complaint → Prop
  | noLine : EndingFails p none (missingHeader p)
  | noHeader {s : SourceLine} (form : s.header? = none) : EndingFails p (some s) (missingHeader p)
  | name {s : SourceLine} {h : Line.Header} (form : s.header? = some h)
      (name_ne : h.name ≠ p.tag.name) :
      EndingFails p (some s)
        ⟨"nif docstring expecting \"" ++ String.ofList p.tag.name ++
          "\" not adjacent to function (next to \"" ++ String.ofList h.name ++ "\")", some s.loc⟩
  | param {s : SourceLine} {h : Line.Header} {before after : List Text} {t : Text}
      {ts : List ZigType} (form : s.header? = some h) (name_eq : h.name = p.tag.name)
      (split : h.paramTypes = before ++ t::after)
      (known : before.map ZigType.read? = ts.map some) (unknown : ZigType.read? t = none) :
      EndingFails p (some s)
        ⟨"nif \"" ++ String.ofList p.tag.name ++ "\" has unsupported parameter type " ++
          String.ofList t, some s.loc⟩
  | ret {s : SourceLine} {h : Line.Header} {ts : List ZigType} (form : s.header? = some h)
      (name_eq : h.name = p.tag.name) (known : h.paramTypes.map ZigType.read? = ts.map some)
      (unknown : ZigType.read? h.retType = none) :
      EndingFails p (some s)
        ⟨"nif \"" ++ String.ofList p.tag.name ++ "\" has unsupported retval type " ++
          String.ofList h.retType, some s.loc⟩
  | arity {s : SourceLine} {h : Line.Header} {ts : List ZigType} {r : ZigType}
      (form : s.header? = some h) (name_eq : h.name = p.tag.name)
      (known : h.paramTypes.map ZigType.read? = ts.map some)
      (ret_known : ZigType.read? h.retType = some r)
      (arity_ne : (ZigType.splitEnv ts).2.length ≠ p.tag.arity) :
      EndingFails p (some s)
        ⟨"mismatched arity declaration, expected " ++ toString p.tag.arity ++ ", got " ++
          toString (ZigType.splitEnv ts).2.length, some s.loc⟩

/-- The block fails at its line `n`, the end of the source counted as a line: at the first of its
documentation lines that is at fault, or else at its ending. -/
inductive Fails (b : Block) : Nat → Complaint → Prop
  | tag {above below : List SourceLine} {l : SourceLine} {p : Option Pending} {c : Complaint}
      (split : b.docs = above ++ l::below) (is_tag : l.isTag = true) (opens : Opens above p)
      (fails : TagFails above l c) : Fails b above.length c
  | ending {p : Pending} {c : Complaint} (opens : Opens b.docs (some p))
      (fails : EndingFails p b.ending c) : Fails b b.docs.length c

end Block

end AnnotatedZig
