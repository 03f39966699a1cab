import AnnotatedZig.Proofs.Scan.Routing
import AnnotatedZig.Scan.Session

/-!
# One documentation line

A documentation line is taken whole or not at all. If it is taken, it is held, and either a tag waits now
that did not, or the documentation has grown by what the line says. Whatever speaks against it, the
context stays as it was, so a line that was refused leaves no trace in what a session does next.
-/

set_option autoImplicit false

namespace AnnotatedZig

/-- How documentation grows by the trimmed text `r`: a text starts it or is its next line, and an empty
one breaks a paragraph if there is documentation to break. -/
inductive Grows (r : Text) : Option Text → Option Text → Prop
  | start (said : r ≠ []) : Grows r none (some r)
  | next (said : r ≠ []) (d : Text) : Grows r (some d) (some (d ++ ['\n'] ++ r))
  | paragraph (silent : r = []) (d : Text) : Grows r (some d) (some (d ++ ['\n']))
  | nothing (silent : r = []) : Grows r none none

theorem grows_iff (r : Text) (d e : Option Text) : Grows r d e ↔ e = Context.addDoc r d := by
  constructor
  · intro grows
    cases grows with
    | start said => rw [Context.addDoc, if_neg said]
    | next said d => rw [Context.addDoc, List.append_assoc, List.singleton_append]
    | paragraph silent d => rw [Context.addDoc, silent]
    | nothing silent => rw [Context.addDoc, if_pos silent]
  · rintro rfl
    by_cases silent : r = []
    · cases d with
      | none =>
        rw [Context.addDoc, if_pos silent]
        exact .nothing silent
      | some d =>
        rw [Context.addDoc, silent]
        exact .paragraph rfl d
    · cases d with
      | none =>
        rw [Context.addDoc, if_neg silent]
        exact .start silent
      | some d =>
        rw [Context.addDoc, ← List.singleton_append, ← List.append_assoc]
        exact .next silent d

namespace Context

/-- What speaks against a line that begins as a tag: it is none, or another tag waits, or its arity has
too many digits to be read. -/
inductive Objection (l : SourceLine) (c : Context) : Failure → Prop
  | malformed (form : l.tag? = none) :
      Objection l c (.defect (.malformedTag (Text.trim l.text)) l.loc)
  | dangling {t : Line.Tag} {p : Pending} (form : l.tag? = some t) (waits : c.pending = some p) :
      Objection l c p.missingHeader
  | oversized {t : Line.Tag} (form : l.tag? = some t) (free : c.pending = none)
      (long : Text.digitLimit < t.digits.length) : Objection l c (.numeralTooLong t.digits.length)

/-- What comes of a line that is tried as documentation. -/
inductive Taking (l : SourceLine) (c : Context) : Option Progress → Prop
  | code (other : Line.doc? (Text.terminated l.text) = none) : Taking l c none
  | refused {text : Text} {f : Failure} (doc : Line.doc? (Text.terminated l.text) = some text)
      (tagged : Line.isTagText text = true) (objection : Objection l c f) :
      Taking l c (some (.fail c f))
  | tag {text : Text} {t : Line.Tag} {p : Pending}
      (doc : Line.doc? (Text.terminated l.text) = some text)
      (tagged : Line.isTagText text = true) (form : l.tag? = some t) (free : c.pending = none)
      (length : t.digits.length ≤ Text.digitLimit)
      (read : p = ⟨⟨t.name, Nat.ofDigitChars 10 t.digits 0, t.options⟩, l.loc⟩) :
      Taking l c (some
        { context := { c with pending := some p, held := c.held ++ [l] }, events := [.pending p] })
  | remark {text : Text} {d : Option Text}
      (doc : Line.doc? (Text.terminated l.text) = some text)
      (plain : Line.isTagText text = false) (grows : Grows (Text.trim text) c.doc d) :
      Taking l c (some { context := { c with doc := d, held := c.held ++ [l] } })

theorem taking_takeDoc (l : SourceLine) (c : Context) : Taking l c (c.takeDoc? l) := by
  cases doc : Line.doc? (Text.terminated l.text) with
  | none =>
    rw [(takeDoc_eq_none_iff c l).mpr doc]
    exact .code doc
  | some text =>
    cases tagged : Line.isTagText text with
    | false =>
      rw [takeDoc_of_plain c l text doc tagged]
      exact .remark doc tagged ((grows_iff _ _ _).mpr rfl)
    | true =>
      rw [takeDoc_of_tagged c l text doc tagged]
      cases form : l.tag? with
      | none =>
        rw [takeTag_malformed l c form]
        exact .refused doc tagged (.malformed form)
      | some t =>
        have tagging := tagging_takeTag l c t form
        generalize c.takeTag l = q at tagging
        cases tagging with
        | waits free length read => exact .tag doc tagged form free length read
        | second waits => exact .refused doc tagged (.dangling form waits)
        | tooLong free long => exact .refused doc tagged (.oversized form free long)

theorem takeDoc_of_taking (l : SourceLine) (c : Context) (o : Option Progress)
    (taking : Taking l c o) : c.takeDoc? l = o := by
  cases taking with
  | code other => exact (takeDoc_eq_none_iff c l).mpr other
  | refused doc tagged objection =>
    rw [takeDoc_of_tagged c l _ doc tagged]
    cases objection with
    | malformed form => rw [takeTag_malformed l c form]
    | dangling form waits => rw [takeTag_second l c _ _ form waits]
    | oversized form free long => rw [takeTag_long l c _ form free long]
  | tag doc tagged form free length read =>
    rw [takeDoc_of_tagged c l _ doc tagged, takeTag_form c l _ form free length, read]
    rfl
  | remark doc plain grows =>
    rw [takeDoc_of_plain c l _ doc plain, (grows_iff _ _ _).mp grows]
    rfl

theorem takeDoc_eq_iff (l : SourceLine) (c : Context) (o : Option Progress) :
    c.takeDoc? l = o ↔ Taking l c o := by
  constructor
  · rintro rfl
    exact taking_takeDoc l c
  · exact takeDoc_of_taking l c o

theorem takeDoc_of_failure (l : SourceLine) (c : Context) (p : Progress) (f : Failure)
    (h : c.takeDoc? l = some p) (hf : p.failure = some f) : p = .fail c f ∧ Objection l c f := by
  have taking := (takeDoc_eq_iff l c _).mp h
  cases taking with
  | refused doc tagged objection =>
    obtain rfl := Option.some.inj hf
    exact ⟨rfl, objection⟩
  | tag => simp at hf
  | remark => simp at hf

/-- The line `l` has joined the block, and one thing beside has changed: the tag that waits, or the
documentation. -/
structure Joined (l : SourceLine) (c d : Context) : Prop where
  file : d.file = c.file
  params : d.params = c.params
  ret : d.ret = c.ret
  held : d.held = c.held ++ [l]
  one :
    (c.pending = none ∧ d.doc = c.doc ∧ ∃ t, l.tag? = some t ∧
      d.pending = some ⟨⟨t.name, Nat.ofDigitChars 10 t.digits 0, t.options⟩, l.loc⟩) ∨
    (d.pending = c.pending ∧ Grows (Line.remark l.text) c.doc d.doc)

theorem joined_takeDoc (l : SourceLine) (c : Context) (p : Progress) (h : c.takeDoc? l = some p)
    (hf : p.failure = none) : Joined l c p.context := by
  have taking := (takeDoc_eq_iff l c _).mp h
  cases taking with
  | refused => simp [Progress.fail] at hf
  | @tag _ t _ doc tagged form free length read =>
    exact ⟨rfl, rfl, rfl, rfl, .inl ⟨free, rfl, t, form, congrArg some read⟩⟩
  | remark doc plain grows =>
    refine ⟨rfl, rfl, rfl, rfl, .inr ⟨rfl, ?_⟩⟩
    rwa [Line.remark, doc, Option.getD_some]

theorem session_untaken (c : Context) (text : Text) (line : Int) (as : List Action)
    (h : ∀ p, c.takeDoc? ⟨text, c.file, line⟩ = some p → p.failure ≠ none) :
    session (.doc text line :: as) c = (Action.doc text line).perform c :: session as c := by
  have hcontext : ((Action.doc text line).perform c).progress.context = c := by
    rw [Action.perform]
    cases htake : c.takeDoc? ⟨text, c.file, line⟩ with
    | none => rfl
    | some p =>
      obtain ⟨f, hf⟩ := Option.ne_none_iff_exists'.mp (h p htake)
      obtain ⟨rfl, -⟩ := takeDoc_of_failure _ c p f htake hf
      rfl
  rw [session, hcontext]

/-- A documentation line is atomic. Exactly one thing comes of it, whatever the context: nothing, if and
only if it does not read as documentation; a failure that leaves the context as it was; or it joins the
block, and either makes a tag wait or adds what it says to the documentation. A line that is not taken
has no effect on what a session does after it. -/
theorem takeDoc_atomic (l : SourceLine) (c : Context) :
    (∀ o, c.takeDoc? l = o ↔ Taking l c o) ∧
    (c.takeDoc? l = none ↔ Line.doc? (Text.terminated l.text) = none) ∧
    (∀ p f, c.takeDoc? l = some p → p.failure = some f → p = .fail c f ∧ Objection l c f) ∧
    (∀ p, c.takeDoc? l = some p → p.failure = none → Joined l c p.context) ∧
    ∀ text line as, (∀ p, c.takeDoc? ⟨text, c.file, line⟩ = some p → p.failure ≠ none) →
      session (.doc text line :: as) c = (Action.doc text line).perform c :: session as c :=
  ⟨takeDoc_eq_iff l c, takeDoc_eq_none_iff c l, takeDoc_of_failure l c, joined_takeDoc l c,
    session_untaken c⟩

end Context

end AnnotatedZig
