import AnnotatedZig.Scan.Step

/-!
# Extracting the declarations of a source text

The outcome is the list of declarations, and the code without the blocks that became declarations,
below a marker that names the file and the line it was taken from. `extract` goes by numbers alone;
`deliver` is what comes of it, since a marker or an error whose line number has too many digits
cannot be written.
-/

set_option autoImplicit false

namespace AnnotatedZig

structure Outcome where
  code : Text
  declarations : List Declaration
  deriving DecidableEq

def marker (file : String) (line : Int) : Text :=
  "// ".toList ++ file.toList ++ " line: ".toList ++ (toString line).toList ++ ['\n']

namespace Progress

def texts (p : Progress) : List Text := p.items.filterMap Item.text?

def declarations (p : Progress) : List Declaration := p.items.filterMap Item.declaration?

theorem texts_andThen (p : Progress) (next : Context → Progress) (h : p.failure = none) :
    (p.andThen next).texts = p.texts ++ (next p.context).texts := by
  simp [andThen_of_none p next h, texts]

theorem declarations_andThen (p : Progress) (next : Context → Progress) (h : p.failure = none) :
    (p.andThen next).declarations = p.declarations ++ (next p.context).declarations := by
  simp [andThen_of_none p next h, declarations]

end Progress

def scanCode (code : Text) (file : String) (line : Int) : Progress :=
  Context.scan code line { file := file }

def Outcome.ofProgress (file : String) (line : Int) (p : Progress) : Except Failure Outcome :=
  match p.failure with
  | some f => .error f
  | none => .ok ⟨marker file line ++ p.texts.flatten, p.declarations⟩

theorem Outcome.ofProgress_congr (file : String) (line : Int) (p q : Progress)
    (hitems : p.items = q.items) (hfailure : p.failure = q.failure) :
    ofProgress file line p = ofProgress file line q := by
  simp only [ofProgress, Progress.texts, Progress.declarations, hitems, hfailure]

def extract (code : Text) (file : String) (line : Int) : Except Failure Outcome :=
  Outcome.ofProgress file line (scanCode code file line)

theorem extract_eq_error_iff (code : Text) (file : String) (line : Int) (f : Failure) :
    extract code file line = .error f ↔ (scanCode code file line).failure = some f := by
  cases h : (scanCode code file line).failure <;> simp [extract, Outcome.ofProgress, h]

theorem extract_eq_ok_iff (code : Text) (file : String) (line : Int) (o : Outcome) :
    extract code file line = .ok o ↔ (scanCode code file line).failure = none ∧
      o = ⟨marker file line ++ (scanCode code file line).texts.flatten,
        (scanCode code file line).declarations⟩ := by
  cases h : (scanCode code file line).failure <;> simp [extract, Outcome.ofProgress, h, eq_comm]

def extractEvents (code : Text) (file : String) (line : Int) : List Event :=
  (scanCode code file line).events

/-- The outcome of an extraction, or what it is given up with. The marker is written before the first
line is looked at. -/
def deliver (code : Text) (file : String) (line : Int) : Except Raised Outcome :=
  if Text.Prints line then (extract code file line).mapError Failure.raised
  else .error (.number .unprintable)

def deliverEvents (code : Text) (file : String) (line : Int) : List Event :=
  if Text.Prints line then extractEvents code file line else []

theorem deliver_unprintable (code : Text) (file : String) (line : Int) (h : ¬ Text.Prints line) :
    deliver code file line = .error (.number .unprintable) := if_neg h

theorem deliver_prints (code : Text) (file : String) (line : Int) (h : Text.Prints line) :
    deliver code file line = (extract code file line).mapError Failure.raised := if_pos h

theorem deliver_eq_ok_iff (code : Text) (file : String) (line : Int) (o : Outcome) :
    deliver code file line = .ok o ↔ Text.Prints line ∧ extract code file line = .ok o := by
  by_cases h : Text.Prints line
  · rw [deliver_prints code file line h]
    cases extract code file line with
    | ok a =>
      show Except.ok a = Except.ok o ↔ _
      simp [h]
    | error f =>
      show Except.error f.raised = Except.ok o ↔ _
      simp [h]
  · simp [deliver_unprintable code file line h, h]

theorem deliver_eq_error_iff (code : Text) (file : String) (line : Int) (x : Raised) :
    deliver code file line = .error x ↔ (¬ Text.Prints line ∧ x = .number .unprintable) ∨
      (Text.Prints line ∧ ∃ f, extract code file line = .error f ∧ f.raised = x) := by
  by_cases h : Text.Prints line
  · rw [deliver_prints code file line h]
    cases extract code file line with
    | ok a =>
      show Except.ok a = Except.error x ↔ _
      simp [h]
    | error f =>
      show Except.error f.raised = Except.error x ↔ _
      simp [h]
  · simp [deliver_unprintable code file line h, h, eq_comm]

end AnnotatedZig
