import AnnotatedZig.Command.Run
import AnnotatedZig.Proofs.Declaration
import AnnotatedZig.Proofs.Json

/-!
# What a report says

A report on a defect says nothing else, and a report on a source without one lists its declarations.
Either can be given as a record. A defect that is told has a line that can be printed, but a line of a
declaration may have a number that cannot, and then there is no record.
-/

set_option autoImplicit false

namespace AnnotatedZig.Command

/-- The report on a source with a defect: nothing is written, and the defect is all that is reported,
on the standard output as a record or on the error output, behind the log, as a line. -/
structure Report.Fails (report : Report) (json : Bool) (log description file : String) (line : Int) :
    Prop where
  ending : report.ending = .exit 1
  output : report.output = none
  record : json = true → report.stderr = log ∧ ∃ s, (Json.object [("exit_code", .int 1),
    ("diagnostics", .array [.object [("phase", .text "parser"), ("message", .text description),
      ("severity", .text "error"), ("file", .text file), ("line", .int line), ("column", .null),
      ("notes", .array [])]])]).render? = some s ∧ report.stdout = s ++ "\n"
  line : json = false → report.stdout = "" ∧ report.stderr =
    log ++ file ++ ":" ++ toString line ++ ": error: " ++ description ++ "\n"

/-- The report on a source without a defect: all declarations in their order, each as a record or as a
line. -/
structure Report.Succeeds (report : Report) (json : Bool) (log : String) (ds : List Declaration) :
    Prop where
  ending : report.ending = .exit 0
  log_eq : report.stderr = log
  records : json = true → ∃ s, (Json.object [("exit_code", .int 0),
    ("declarations", .array (ds.map fun d => .object [("name", .text (String.ofList d.name)),
      ("arity", .int d.arity),
      ("params", .array (d.params.map fun t => .text (String.ofList t.spelling))),
      ("retval", .text (String.ofList d.ret.spelling)),
      ("env", .ofOption (fun t => .text (String.ofList t.spelling)) d.env),
      ("opts", .array (d.options.map fun o => .text (String.ofList o.spelling))),
      ("doc", .ofOption (fun t => .text (String.ofList t)) d.doc),
      ("line", .ofOption (fun l => .int l.line) d.loc)]))]).render? = some s ∧
    report.stdout = s ++ "\n"
  lines : json = false → Text.splitLines report.stdout.toList = ds.map fun d =>
    d.name ++ '/' :: (toString d.arity).toList ++ ": ".toList ++ d.name ++
      '(' :: Text.joinWith ", ".toList ((d.env.toList ++ d.params).map ZigType.spelling) ++
      ") ".toList ++ d.ret.spelling ++
      (if d.options = [] then []
        else " [".toList ++ Text.joinWith [' '] (d.options.map ExecOption.spelling) ++ [']']) ++ ['\n']

/-- The run ends for want of a number that can be printed, or read. -/
structure Report.Breaks (report : Report) (fault : Text.NumberFault) (log : String) : Prop where
  ending : report.ending = .crash (.number fault)
  stdout : report.stdout = ""
  log_eq : report.stderr = log

namespace Report

variable {a b : Report} {json : Bool} {log log' : String}

end Report

def Listable (ds : List Declaration) : Prop := ∀ d ∈ ds, ∀ l, d.loc = some l → Text.Prints l.line

namespace Job

variable (j : Job) (log : Journal) (text : Text)

theorem diagnosis_record (file description : String) (n : Int) (hjson : j.json = true)
    (hn : Text.Prints n) : ∃ s,
      j.diagnosis? (LocatedError.diagnostic ⟨description, some file, some n, none⟩) = some s ∧
      (Json.object [("exit_code", .int 1), ("diagnostics", .array [.object [
        ("phase", .text "parser"), ("message", .text description), ("severity", .text "error"),
        ("file", .text file), ("line", .int n), ("column", .null),
        ("notes", .array [])]])]).render? = some s := by
  let d : Diagnostic := LocatedError.diagnostic ⟨description, some file, some n, none⟩
  have hone : (Json.int 1).render?.isSome = true := (Json.isSome_int 1).mpr (by decide)
  have hline : (Json.int n).render?.isSome = true := (Json.isSome_int n).mpr hn
  have hsome : (failureRecord d).render?.isSome = true := by
    simp [failureRecord, Diagnostic.json, Json.isSome_object, Json.isSome_array, Json.isSome_ofOption,
      Json.isSome_text, hone, d, LocatedError.diagnostic, hline]
  obtain ⟨s, hs⟩ := Option.isSome_iff_exists.mp hsome
  exact ⟨s, by rw [diagnosis?, if_pos hjson, hs], hs⟩

theorem diagnosis_line (file description : String) (n : Int) (hjson : j.json = false)
    (named : file ≠ "") (hn : Text.Prints n) :
    j.diagnosis? (LocatedError.diagnostic ⟨description, some file, some n, none⟩) =
      some (file ++ ":" ++ toString n ++ ": error: " ++ description) := by
  have hplace := Span.text_ofLocation ⟨file, n⟩ named hn
  have hjoin : ": error: " = ": " ++ "error" ++ ": " := rfl
  rw [diagnosis?, hjson, if_neg (by simp), Diagnostic.text?, LocatedError.diagnostic]
  rw [Span.ofLocation] at hplace
  simp only [hplace, Option.map_some, hjoin, String.append_assoc]

theorem failure_fails (file description : String) (n : Int) (named : file ≠ "")
    (hn : Text.Prints n) :
    (j.failure log text (.located ⟨description, some file, some n, none⟩)).Fails j.json
      (log.text j.level (j.notes text)) description file n := by
  cases hjson : j.json with
  | true =>
    obtain ⟨s, hs, hrecord⟩ := j.diagnosis_record file description n hjson hn
    simp only [failure, hs, hjson, if_true]
    exact ⟨rfl, rfl, fun _ => ⟨rfl, s, hrecord, rfl⟩, by simp⟩
  | false =>
    have hs := j.diagnosis_line file description n hjson named hn
    simp only [failure, hs, hjson]
    refine ⟨rfl, rfl, by simp, fun _ => ⟨rfl, ?_⟩⟩
    simp only [String.append_assoc]
    rfl

theorem failure_breaks (fault : Text.NumberFault) :
    (j.failure log text (.number fault)).Breaks fault (log.text j.level (j.notes text)) :=
  ⟨rfl, rfl, rfl⟩

theorem listing_isSome (o : Outcome) (h : ∀ d ∈ o.declarations, Text.Prints d.arity) :
    (j.listing? o).isSome = true ↔ (j.json = true → Listable o.declarations) := by
  cases hjson : j.json with
  | true => simp [listing?, hjson, isSome_successRecord _ h, Listable]
  | false => simp [listing?, hjson]

def logged (o : Outcome) : String :=
  log.text j.level (j.notes text ++ [.count j.source.text o.declarations.length])

theorem success_eq (o : Outcome) (kept : j.output ≠ some .dropped) :
    (j.success log text o).ending = (j.listed o).ending ∧
      (j.success log text o).stdout = (j.listed o).stdout ∧
      (j.success log text o).stderr = j.logged log text o := by
  rw [success]
  split
  · next hdropped => exact absurd hdropped kept
  · exact ⟨rfl, rfl, rfl⟩
  · exact ⟨rfl, rfl, rfl⟩

theorem success_succeeds (o : Outcome) (kept : j.output ≠ some .dropped)
    (proper : ∀ d ∈ o.declarations, Line.IsName d.name ∧ Text.Prints d.arity)
    (listable : j.json = true → Listable o.declarations) :
    (j.success log text o).Succeeds j.json (j.logged log text o) o.declarations := by
  obtain ⟨hending, hstdout, hstderr⟩ := j.success_eq log text o kept
  have hsome := (j.listing_isSome o fun d hd => (proper d hd).2).mpr listable
  obtain ⟨s, hs⟩ := Option.isSome_iff_exists.mp hsome
  simp only [listed, hs] at hending hstdout
  refine ⟨hending, hstderr, fun hjson => ?_, fun hjson => ?_⟩
  · rw [listing?, if_pos hjson] at hs
    obtain ⟨t, ht, rfl⟩ := Option.map_eq_some_iff.mp hs
    exact ⟨t, ht, hstdout⟩
  · rw [listing?, hjson, if_neg (by simp)] at hs
    obtain rfl := Option.some.inj hs
    rw [hstdout, String.toList_ofList]
    rw [Declaration.splitLines_table o.declarations fun d hd => (proper d hd).1]
    refine List.map_congr_left fun d _ => ?_
    simp only [Declaration.tableLine, Declaration.signature, Declaration.arityText,
      Declaration.optionsText, List.append_assoc, List.cons_append]

theorem success_breaks (o : Outcome) (kept : j.output ≠ some .dropped)
    (proper : ∀ d ∈ o.declarations, Text.Prints d.arity)
    (unlistable : ¬ (j.json = true → Listable o.declarations)) :
    (j.success log text o).Breaks .unprintable (j.logged log text o) := by
  obtain ⟨hending, hstdout, hstderr⟩ := j.success_eq log text o kept
  have hnone : j.listing? o = none := by
    rw [← Option.not_isSome_iff_eq_none, j.listing_isSome o proper]
    exact unlistable
  simp only [listed, hnone] at hending hstdout
  exact ⟨hending, hstdout, hstderr⟩

end Job

end AnnotatedZig.Command
