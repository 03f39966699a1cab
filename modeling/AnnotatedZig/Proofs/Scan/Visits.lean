import AnnotatedZig.Proofs.Scan.Effect
import AnnotatedZig.Scan.Session
import Mathlib.Data.List.Chain

/-!
# The contexts that a session goes through

A session goes from context to context in single turns: a line, a release or a reset, also in the
middle of a scan. What a turn keeps is therefore kept by every session, and to follow a session it
is enough to know what one turn can do.
-/

set_option autoImplicit false

namespace AnnotatedZig

/-- The context after each line of a scan, down to the first that fails, and after the end. -/
def Context.visits : List SourceLine → Context → List Context
  | [], c => [c.finish.context]
  | l::ls, c =>
    (c.step l).context :: if (c.step l).failure = none then visits ls (c.step l).context else []

def Action.visits (c : Context) : Action → List Context
  | scan code start => Context.visits (SourceLine.ofCode code c.file start) c
  | a => [(a.perform c).progress.context]

/-- All contexts that a session goes through, from `c` on. -/
def trail : List Action → Context → List Context
  | [], _ => []
  | a::as, c => a.visits c ++ trail as (a.perform c).progress.context

namespace Context

/-- What can happen to a context at once. -/
inductive Turn (c : Context) : Context → Prop
  | line {l : SourceLine} {p : Progress} (effect : Effect l c p) : Turn c p.context
  | release : Turn c c.release.context
  | reset : Turn c c.reset
  | rest : Turn c c

theorem turn_finish (c : Context) : Turn c c.finish.context := by
  cases hc : c.pending with
  | some p =>
    rw [finish_waits c p hc]
    exact .rest
  | none =>
    rw [finish_free c hc]
    exact .reset

theorem visits_chain (ls : List SourceLine) (c : Context) (rest : List Context)
    (h : (((steps ls c).andThen finish).context :: rest).IsChain Turn) :
    (c :: (visits ls c ++ rest)).IsChain Turn := by
  induction ls generalizing c with
  | nil => exact .cons_cons (turn_finish c) (by simpa [steps, Progress.andThen] using h)
  | cons l ls ih =>
    have hturn : Turn c (c.step l).context := .line (effect_step l c)
    rw [steps, Progress.andThen_assoc] at h
    cases hl : (c.step l).failure with
    | some f =>
      -- The failure ends the scan, and the context it leaves is the last one visited.
      rw [Progress.andThen_of_failure _ _ f hl] at h
      simpa [visits, hl] using List.IsChain.cons_cons hturn h
    | none =>
      rw [Progress.andThen_of_none _ _ hl] at h
      simpa [visits, hl] using List.IsChain.cons_cons hturn (ih _ h)

theorem end_mem_visits (ls : List SourceLine) (c : Context) :
    ((steps ls c).andThen finish).context ∈ visits ls c := by
  induction ls generalizing c with
  | nil => simp [visits, steps, Progress.andThen]
  | cons l ls ih =>
    rw [steps, Progress.andThen_assoc]
    cases hl : (c.step l).failure with
    | some f =>
      rw [Progress.andThen_of_failure _ _ f hl]
      simp [visits]
    | none =>
      rw [Progress.andThen_of_none _ _ hl]
      simpa [visits, hl] using .inr (ih (c.step l).context)

end Context

namespace Action

theorem turn_doc (c : Context) (text : Text) (line : Int) :
    c.Turn ((doc text line).perform c).progress.context := by
  rw [perform]
  split
  · next p h =>
    rw [← Context.step_of_takeDoc _ c p h]
    exact .line (Context.effect_step _ c)
  · exact .rest

theorem turn_header (c : Context) (text : Text) (line : Int) :
    c.Turn ((header text line).perform c).progress.context := by
  rw [perform]
  split
  · next h form => exact .line (Context.effect_takeHeader ⟨text, c.file, line⟩ c h form)
  · exact .rest

theorem visits_chain (a : Action) (c : Context) (rest : List Context)
    (h : ((a.perform c).progress.context :: rest).IsChain Context.Turn) :
    (c :: (a.visits c ++ rest)).IsChain Context.Turn := by
  cases a with
  | scan code start => exact Context.visits_chain _ c rest h
  | doc text line => exact .cons_cons (turn_doc c text line) h
  | header text line => exact .cons_cons (turn_header c text line) h
  | release => exact .cons_cons .release h
  | reset => exact .cons_cons .reset h

theorem end_mem_visits (a : Action) (c : Context) :
    (a.perform c).progress.context ∈ a.visits c := by
  cases a with
  | scan code start => exact Context.end_mem_visits _ c
  | _ => exact List.mem_singleton_self _

end Action

theorem trail_chain (as : List Action) (c : Context) :
    (c :: trail as c).IsChain Context.Turn := by
  induction as generalizing c with
  | nil => exact .singleton c
  | cons a as ih => exact a.visits_chain c _ (ih (a.perform c).progress.context)

theorem session_trail (as : List Action) (c : Context) :
    ((session as c).map fun r => r.progress.context).Sublist (trail as c) := by
  induction as generalizing c with
  | nil => exact .slnil
  | cons a as ih =>
    have hend := List.singleton_sublist.mpr (a.end_mem_visits c)
    exact hend.append (ih (a.perform c).progress.context)

end AnnotatedZig
