import AnnotatedZig.Proofs.Command.Arguments
import AnnotatedZig.Proofs.Command.Report
import AnnotatedZig.Proofs.Command.Source
import AnnotatedZig.Proofs.Command.Store
import AnnotatedZig.Proofs.Scan.Naming
import AnnotatedZig.Proofs.Scan.Place

/-!
# What a run reports

A run that is asked for properly, of a source that can be read and for an output that can be written,
reports what the extraction of its source comes to, and nothing else. How it is reported and where the
code goes is a matter of two options, and neither changes anything but what it is there for; only a
record may be impossible where a line would do, for the number of a line that cannot be printed.
-/

set_option autoImplicit false

namespace AnnotatedZig.Command

def Store.Takes (s : Store) (p : Path) : Prop := ∀ bytes, ∃ t, s.write p bytes = .ok t

/-- The arguments ask for `r` at a known level; its source is there and reads as `text`, its name is
`name`, and its output, if it has one, can be written. -/
structure Accepted (args : List String) (envLevel : Option String) (store : Store) (r : Request)
    (level : Level) (name : String) (text : Text) : Prop where
  request : Request.ofArgs args = .ok r
  level_eq : r.level envLevel = .ok level
  name_eq : name = if r.file.getD "" = "" then (Path.ofString r.source).text else r.file.getD ""
  source : ∃ bytes s, store.read (Path.ofString r.source) = .ok bytes ∧
    String.fromUTF8? bytes = some s ∧ LineEnds s.toList text
  output : ∀ g, r.output = some g → ∃ p, g = .value p ∧ store.Takes (Path.ofString p)

theorem Path.text_ne_empty (s : String) : (ofString s).text ≠ "" := by
  have hsteps : ∀ step ∈ (ofString s).steps, step ≠ "" := by
    intro step hstep
    simp only [ofString, List.mem_filter, Bool.and_eq_true, decide_eq_true_eq] at hstep
    exact hstep.2.1
  rw [text]
  split
  · decide
  · next hroot =>
    rw [not_and] at hroot
    intro hempty
    obtain ⟨hr, hjoin⟩ := String.append_eq_empty_iff.mp hempty
    obtain ⟨step, steps, heq⟩ := List.exists_cons_of_ne_nil (hroot hr)
    rw [heq] at hjoin hsteps
    cases steps with
    | nil => exact hsteps step (by simp) (by simpa using hjoin)
    | cons t ts => simp [String.intercalate_cons_cons, String.append_eq_empty_iff] at hjoin

theorem reportedName_eq (r : Request) (p : Path) :
    reportedName r p = if r.file.getD "" = "" then p.text else r.file.getD "" := by
  cases h : r.file with
  | none => simp [reportedName, h]
  | some f => simp [reportedName, h]

theorem Job.failure_output (j : Job) (log : Journal) (text : Text) (x : Raised) :
    (j.failure log text x).output = none := by
  cases x with
  | number fault => rfl
  | located e =>
    simp only [failure]
    split
    · rfl
    · split <;> rfl

namespace Accepted

variable {args : List String} {envLevel : Option String} {store : Store} {r : Request} {level : Level}
  {name : String} {text : Text}

theorem name_ne_empty (h : Accepted args envLevel store r level name text) : name ≠ "" := by
  rw [h.name_eq]
  split
  · exact Path.text_ne_empty r.source
  · assumption

theorem job_name (h : Accepted args envLevel store r level name text) :
    (Job.ofRequest r level).name = name := by
  rw [h.name_eq]
  exact reportedName_eq r _

theorem notes_eq (h : Accepted args envLevel store r level name text) :
    (Job.ofRequest r level).notes text = (deliverEvents text name r.line).map .event := by
  rw [Job.notes, h.job_name]
  rfl

theorem decoded (h : Accepted args envLevel store r level name text) :
    ∃ bytes, store.read (Path.ofString r.source) = .ok bytes ∧ decode? bytes = some text := by
  obtain ⟨bytes, s, hread, hutf, hends⟩ := h.source
  exact ⟨bytes, hread, (decode_eq_some_iff bytes text).mpr ⟨s, hutf, hends⟩⟩

theorem run_eq (h : Accepted args envLevel store r level name text) (log : Journal) :
    run log args envLevel store = ((Job.ofRequest r level).report log text).settle store := by
  obtain ⟨bytes, hread, hdecode⟩ := h.decoded
  have hplan : plan args envLevel = .ok (Job.ofRequest r level) := by
    simp only [plan, h.request, h.level_eq]
  have hsource : (Job.ofRequest r level).source = Path.ofString r.source := rfl
  simp only [run, hplan, hsource, hread, Job.reportSource, hdecode]

theorem run_failure (h : Accepted args envLevel store r level name text) (log : Journal) (x : Raised)
    (hx : deliver text name r.line = .error x) :
    run log args envLevel store = ((Job.ofRequest r level).failure log text x, store) := by
  have hreport : (Job.ofRequest r level).report log text =
      (Job.ofRequest r level).failure log text x := by
    have hline : (Job.ofRequest r level).line = r.line := rfl
    rw [Job.report, h.job_name, hline, hx]
  rw [h.run_eq, hreport, Report.settle, Job.failure_output]

theorem run_success (h : Accepted args envLevel store r level name text) (log : Journal) (o : Outcome)
    (ho : deliver text name r.line = .ok o) :
    ∃ store', run log args envLevel store = ((Job.ofRequest r level).success log text o, store') ∧
      (r.output = none → store' = store) ∧ ∀ w, r.output = some (.value w) →
        store.write (Path.ofString w) (String.ofList o.code).toUTF8 = .ok store' := by
  have hreport : (Job.ofRequest r level).report log text =
      (Job.ofRequest r level).success log text o := by
    have hline : (Job.ofRequest r level).line = r.line := rfl
    rw [Job.report, h.job_name, hline, ho]
  rw [h.run_eq, hreport]
  cases hout : r.output with
  | none =>
    have hasked : ((Job.ofRequest r level).success log text o).output = none := by
      have hnone : (Job.ofRequest r level).output = none := by simp [Job.ofRequest, hout]
      have hlisted : ((Job.ofRequest r level).listed o).output = none := by
        rw [Job.listed]
        split <;> rfl
      simp only [Job.success, hnone, hlisted]
    exact ⟨store, by rw [Report.settle, hasked], fun _ => rfl, by simp⟩
  | some g =>
    obtain ⟨w, rfl, takes⟩ := h.output g hout
    obtain ⟨store', hwrite⟩ := takes (String.ofList o.code).toUTF8
    have hasked : ((Job.ofRequest r level).success log text o).output =
        some (Path.ofString w, String.ofList o.code) := by
      simp [Job.success, Job.ofRequest, hout, Given.map]
    refine ⟨store', by simp only [Report.settle, hasked, hwrite], by simp, fun v hv => ?_⟩
    obtain rfl : w = v := by simpa using hv
    exact hwrite

theorem kept (h : Accepted args envLevel store r level name text) :
    (Job.ofRequest r level).output ≠ some .dropped := by
  intro hdropped
  obtain ⟨g, hout, hg⟩ := Option.map_eq_some_iff.mp hdropped
  obtain ⟨w, rfl, -⟩ := h.output g hout
  cases hg

theorem run_fails (h : Accepted args envLevel store r level name text) (log : Journal)
    (e : LocatedError) (he : deliver text name r.line = .error (.located e)) :
    ∃ n, e.span = ⟨some name, some n, none⟩ ∧ Within text name r.line ⟨name, n⟩ ∧
      (run log args envLevel store).1.Fails r.json
        (log.text level ((deliverEvents text name r.line).map .event)) e.description name n := by
  rcases raised_cases text name r.line _ he with ⟨d, n, hx, within, hn⟩ | ⟨_, hx, -⟩ | ⟨hx, -⟩
  · obtain rfl : e = d.error ⟨name, n⟩ := Raised.located.inj hx
    refine ⟨n, rfl, within, ?_⟩
    rw [h.run_failure log _ he, ← h.notes_eq]
    exact Job.failure_fails _ log text name d.description n h.name_ne_empty hn
  · cases hx
  · cases hx

theorem run_breaks (h : Accepted args envLevel store r level name text) (log : Journal)
    (fault : Text.NumberFault) (hx : deliver text name r.line = .error (.number fault)) :
    (run log args envLevel store).1.Breaks fault
      (log.text level ((deliverEvents text name r.line).map .event)) := by
  rw [h.run_failure log _ hx, ← h.notes_eq]
  exact Job.failure_breaks _ log text fault

theorem run_succeeds (h : Accepted args envLevel store r level name text) (log : Journal)
    (o : Outcome) (ho : deliver text name r.line = .ok o) :
    ((r.json = true → Listable o.declarations) → (run log args envLevel store).1.Succeeds r.json
      (log.text level ((deliverEvents text name r.line).map .event ++
        [.count (Path.ofString r.source).text o.declarations.length])) o.declarations) ∧
    (¬ (r.json = true → Listable o.declarations) → (run log args envLevel store).1.Breaks .unprintable
      (log.text level ((deliverEvents text name r.line).map .event ++
        [.count (Path.ofString r.source).text o.declarations.length]))) := by
  obtain ⟨store', hrun, -⟩ := h.run_success log o ho
  obtain ⟨-, hextract⟩ := (deliver_eq_ok_iff ..).mp ho
  have hname := isName_extract text name r.line o hextract
  have harity := fun d hd => (declared_within text name r.line o hextract d hd).1
  rw [hrun, ← h.notes_eq]
  exact ⟨Job.success_succeeds _ log text o h.kept fun d hd => ⟨hname d hd, harity d hd⟩,
    Job.success_breaks _ log text o h.kept harity⟩

end Accepted

/-- Two runs of the same scan end alike, if both use records or neither does, or if records make no
difference. They then print the same in the same mode, log the same at the same level, and leave the
same store if they have the same output. -/
structure Agree (r r' : Request) (indifferent : Prop) (a b : Report × Store) : Prop where
  ending : r'.json = r.json ∨ indifferent → b.1.ending = a.1.ending
  stdout : r'.json = r.json → b.1.stdout = a.1.stdout
  stderr : r'.json = r.json → r'.logLevel = r.logLevel → b.1.stderr = a.1.stderr
  store : r'.output = r.output → b.2 = a.2

namespace Accepted

variable {args args' : List String} {envLevel : Option String} {store : Store} {r r' : Request}
  {level level' : Level} {name name' : String} {text text' : Text}

end Accepted

end AnnotatedZig.Command
