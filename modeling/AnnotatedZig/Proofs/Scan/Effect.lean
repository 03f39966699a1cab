import AnnotatedZig.Proofs.Block.Run
import AnnotatedZig.Proofs.Line.Forms

/-!
# What a line can do

A line joins the held lines, as a remark or as a tag; or it ends the block, with or without a
declaration; or it fails. A line that fails gives nothing out and holds nothing, and can change a
context only by the types that a header leaves behind when it fails after some of them were read.
-/

set_option autoImplicit false

namespace AnnotatedZig

theorem SourceLine.isDoc_of_header (l : SourceLine) (h : Line.Header) (form : l.header? = some h) :
    l.isDoc = false := by
  rw [isDoc, Line.isDoc, Line.doc_of_header _ h form]
  rfl

def SourceLine.passing (l : SourceLine) : List Event :=
  (l.header?.map fun h => .passing h.name l.loc).toList

namespace Context

def declaration (p : Pending) (ts : List ZigType) (ret : ZigType) (l : SourceLine) (c : Context) :
    Declaration :=
  { name := p.tag.name, arity := p.tag.arity, params := (ZigType.splitEnv ts).2, ret := ret
    doc := c.doc, options := p.tag.options, env := (ZigType.splitEnv ts).1, loc := some l.loc }

/-- What can be wrong at the line `l`: something with the line itself, or that it leaves the tag that
waits without its header, or that it is a tag with too many digits. -/
inductive Fault (l : SourceLine) (c : Context) : Failure → Prop
  | here (d : Defect) : Fault l c (.defect d l.loc)
  | lost {p : Pending} (waits : c.pending = some p) : Fault l c p.missingHeader
  | digits {t : Line.Tag} (form : l.tag? = some t) (long : Text.digitLimit < t.digits.length) :
      Fault l c (.numeralTooLong t.digits.length)

/-- What the line `l` can make of the context `c`, and what it gives out. -/
inductive Effect (l : SourceLine) (c : Context) : Progress → Prop
  | remark (doc : l.isDoc = true) (plain : l.isTag = false) :
      Effect l c { context := { c with doc := addDoc (Line.remark l.text) c.doc }.hold l }
  | tag {t : Line.Tag} {p : Pending} (is_tag : l.isTag = true) (free : c.pending = none)
      (form : l.tag? = some t) (length : t.digits.length ≤ Text.digitLimit)
      (read : p = ⟨⟨t.name, Nat.ofDigitChars 10 t.digits 0, t.options⟩, l.loc⟩) :
      Effect l c { context := { c with pending := some p }.hold l, events := [.pending p] }
  | declare {p : Pending} {h : Line.Header} {ts : List ZigType} {ret : ZigType} {d : Declaration}
      (waits : c.pending = some p) (form : l.header? = some h) (name_eq : h.name = p.tag.name)
      (known : h.paramTypes.map ZigType.read? = ts.map some)
      (ret_known : ZigType.read? h.retType = some ret)
      (arity_eq : (ZigType.splitEnv (c.params ++ ts)).2.length = p.tag.arity)
      (made : d = c.declaration p (c.params ++ ts) ret l) :
      Effect l c
        { context := c.reset, items := [.text l.text, .declaration d]
          events := [.declared d l.loc] }
  | pass (code : l.isDoc = false) (free : c.pending = none) :
      Effect l c
        { context := c.reset, items := c.held.map (fun m => .text m.text) ++ [.text l.text]
          events := l.passing }
  | refuse (f : Failure) (fault : Fault l c f) : Effect l c (.fail c f)
  | reject {p : Pending} {h : Line.Header} {before after : List Text} {ts : List ZigType}
      {ret : Option ZigType} (f : Failure) (waits : c.pending = some p)
      (form : l.header? = some h) (name_eq : h.name = p.tag.name)
      (split : h.paramTypes = before ++ after) (known : before.map ZigType.read? = ts.map some)
      (ret_eq : ret = c.ret ∨ ret = ZigType.read? h.retType) (fault : Fault l c f) :
      Effect l c (.fail { c with params := c.params ++ ts, ret := ret } f)

inductive Tagging (l : SourceLine) (c : Context) (t : Line.Tag) : Progress → Prop
  | waits {p : Pending} (free : c.pending = none) (length : t.digits.length ≤ Text.digitLimit)
      (read : p = ⟨⟨t.name, Nat.ofDigitChars 10 t.digits 0, t.options⟩, l.loc⟩) :
      Tagging l c t { context := { c with pending := some p }.hold l, events := [.pending p] }
  | second {p : Pending} (waits : c.pending = some p) : Tagging l c t (.fail c p.missingHeader)
  | tooLong (free : c.pending = none) (long : Text.digitLimit < t.digits.length) :
      Tagging l c t (.fail c (.numeralTooLong t.digits.length))

theorem tagging_takeTag (l : SourceLine) (c : Context) (t : Line.Tag) (form : l.tag? = some t) :
    Tagging l c t (c.takeTag l) := by
  cases free : c.pending with
  | some p =>
    rw [takeTag_second l c t p form free]
    exact .second free
  | none =>
    by_cases length : t.digits.length ≤ Text.digitLimit
    · rw [takeTag_form c l t form free length]
      exact .waits free length rfl
    · have long := Nat.not_le.mp length
      rw [takeTag_long l c t form free long]
      exact .tooLong free long

theorem effect_takeTag (l : SourceLine) (c : Context) (is_tag : l.isTag = true) :
    Effect l c (c.takeTag l) := by
  cases form : l.tag? with
  | none =>
    rw [takeTag_malformed l c form]
    exact .refuse _ (.here _)
  | some t =>
    have tagging := tagging_takeTag l c t form
    generalize c.takeTag l = q at tagging
    cases tagging with
    | waits free length read => exact .tag is_tag free form length read
    | second waits => exact .refuse _ (.lost waits)
    | tooLong free long => exact .refuse _ (.digits form long)

theorem effect_takeHeader (l : SourceLine) (c : Context) (h : Line.Header)
    (form : l.header? = some h) : Effect l c (c.takeHeader h l) := by
  have hall : h.paramTypes = h.paramTypes ++ [] := (List.append_nil _).symm
  obtain ⟨q, verdict⟩ := exists_verdict h l c
  rw [takeHeader_of_verdict h l c q verdict]
  cases verdict with
  | pass free =>
    have hnote : l.passing = [.passing h.name l.loc] := by
      rw [SourceLine.passing, form]
      rfl
    rw [← hnote]
    exact .pass (l.isDoc_of_header h form) free
  | stray waits name_ne => exact .refuse _ (.here _)
  | param waits name_eq split known unknown =>
    exact .reject _ waits form name_eq split known (.inl rfl) (.here _)
  | ret waits name_eq known unknown =>
    exact .reject _ waits form name_eq hall known (.inl rfl) (.here _)
  | arity waits name_eq known ret_known split arity_ne =>
    exact .reject _ waits form name_eq hall known (.inr ret_known.symm) (.here _)
  | declare waits name_eq known ret_known split arity_eq made =>
    refine .declare waits form name_eq known ret_known ?_ ?_
    · rw [split, arity_eq]
    · rw [made, declaration, split]

theorem effect_takeOther (l : SourceLine) (c : Context) (code : l.isDoc = false)
    (form : l.header? = none) : Effect l c (c.takeOther l) := by
  cases hc : c.pending with
  | some p =>
    rw [takeOther, hc]
    exact .refuse _ (.lost hc)
  | none =>
    have hnote : l.passing = [] := by
      rw [SourceLine.passing, form]
      rfl
    rw [takeOther, hc, passThrough_free c l hc, ← hnote]
    exact .pass code hc

theorem effect_step (l : SourceLine) (c : Context) : Effect l c (c.step l) := by
  cases hd : l.isDoc with
  | true =>
    cases ht : l.isTag with
    | true =>
      rw [step_tag c l ht]
      exact effect_takeTag l c ht
    | false =>
      rw [step_plain c l hd ht]
      exact .remark hd ht
  | false =>
    cases form : l.header? with
    | some h =>
      rw [step_header c l h hd form]
      exact effect_takeHeader l c h form
    | none =>
      rw [step_other c l hd form]
      exact effect_takeOther l c hd form

theorem step_of_takeDoc (l : SourceLine) (c : Context) (q : Progress)
    (h : c.takeDoc? l = some q) : c.step l = q := by
  rw [step, h]

theorem finish_waits (c : Context) (p : Pending) (waits : c.pending = some p) :
    c.finish = .fail c p.missingHeader := by
  rw [finish, waits]

theorem finish_free (c : Context) (free : c.pending = none) :
    c.finish = { context := c.reset, items := c.held.map fun m => .text m.text } := by
  rw [finish, free]
  simp [release, reset, free]

end Context

end AnnotatedZig
