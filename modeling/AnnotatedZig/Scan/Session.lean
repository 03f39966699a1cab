import AnnotatedZig.Scan.Step

/-!
# Sessions

A session performs scans, single lines, releases and resets on one context, in any order. It goes
on after a failure, from the context that the failure left.
-/

set_option autoImplicit false

namespace AnnotatedZig

inductive Action where
  | scan (code : Text) (start : Int)
  | doc (text : Text) (line : Int)
  | header (text : Text) (line : Int)
  | release
  | reset
  deriving DecidableEq

/-- The progress of an action, and whether the line it brings was of the form it asks for. -/
structure Reply where
  progress : Progress
  taken : Bool
  deriving DecidableEq

namespace Reply

def unchanged (c : Context) : Reply := ⟨{ context := c }, false⟩

end Reply

namespace Action

def perform (c : Context) : Action → Reply
  | scan code start => ⟨c.scan code start, true⟩
  | doc text line =>
    match c.takeDoc? ⟨text, c.file, line⟩ with
    | some p => ⟨p, true⟩
    | none => .unchanged c
  | header text line =>
    match Line.header? (Text.terminated text) with
    | some h => ⟨c.takeHeader h ⟨text, c.file, line⟩, true⟩
    | none => .unchanged c
  | release => ⟨c.release, true⟩
  | reset => ⟨{ context := c.reset }, true⟩

end Action

def session : List Action → Context → List Reply
  | [], _ => []
  | a::as, c => a.perform c :: session as (a.perform c).progress.context

end AnnotatedZig
