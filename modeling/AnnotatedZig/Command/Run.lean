import AnnotatedZig.Command.Log
import AnnotatedZig.Command.Settings
import AnnotatedZig.Command.Store
import AnnotatedZig.Extract
import AnnotatedZig.Json

/-!
# A run of the command

The arguments and the environment make a job, the bytes of its source make a report, and the report
may ask for one file to be written. Nothing is written when the scan fails, and nothing is printed
on the standard output when the writing fails. A record with a number of too many digits cannot be
printed, and what was to be written is written by then.
-/

set_option autoImplicit false

namespace AnnotatedZig.Command

/-- A fault that the command does not report itself and that ends it at once. -/
inductive Crash where
  | unknownLevel (name : String)
  | file (fault : FileFault) (path : Path)
  | undecodable
  | number (fault : Text.NumberFault)
  | noLine
  | noLevel
  | noOutput
  deriving DecidableEq

def Crash.message? : Crash → Option String
  | unknownLevel name => some ("Unknown level: " ++ Text.quoted name)
  | file fault path => some (fault.message path.text)
  | undecodable => none
  | number fault => some fault.message
  | noLine => some "'<' not supported between instances of 'list' and 'int'"
  | noLevel => some "'list' object has no attribute 'upper'"
  | noOutput => some "'list' object has no attribute 'write_text'"

inductive Ending where
  | exit (code : Nat)
  | crash (c : Crash)
  deriving DecidableEq

structure Report where
  ending : Ending
  stdout : String := ""
  stderr : String := ""
  output : Option (Path × String) := none
  deriving DecidableEq

structure Job where
  source : Path
  name : String
  line : Int
  output : Option (Given Path)
  json : Bool
  level : Level
  deriving DecidableEq

def Stop.report : Stop → Report
  | .help => { ending := .exit 0, stdout := helpText }
  | .misuse e =>
    { ending := .exit 2, stderr := usageText ++ "zignifc: error: " ++ e.message ++ "\n" }
  | .noLine => { ending := .crash .noLine }

def reportedName (r : Request) (source : Path) : String :=
  match r.file with
  | none => source.text
  | some f => if f = "" then source.text else f

def Job.ofRequest (r : Request) (level : Level) : Job :=
  let source := Path.ofString r.source
  { source := source, name := reportedName r source, line := r.line
    output := r.output.map (Given.map Path.ofString), json := r.json, level := level }

def levelNamed (name : String) : Except Crash Level :=
  match Level.ofName name with
  | .ok level => .ok level
  | .error name => .error (.unknownLevel name)

/-- The level asked for; an option for it wins over the environment. -/
def Request.level (r : Request) (envLevel : Option String) : Except Crash Level :=
  match r.logLevel with
  | none => levelNamed (envLevel.getD "WARNING")
  | some (.value name) => levelNamed name
  | some .dropped => .error .noLevel

def plan (args : List String) (envLevel : Option String) : Except Report Job :=
  match Request.ofArgs args with
  | .error stop => .error stop.report
  | .ok r =>
    match r.level envLevel with
    | .error crash => .error { ending := .crash crash }
    | .ok level => .ok (Job.ofRequest r level)

/-- Every line end becomes one line feed: a line feed right behind a carriage return goes, and the
carriage return stands for both. -/
def unifyLineEnds (s : Text) : Text :=
  ((s.zip ('\n' :: s)).filter fun p => !(p.1 = '\n' && p.2 = '\r')).map fun p =>
    if p.1 = '\r' then '\n' else p.1

def decode? (bytes : ByteArray) : Option Text :=
  (String.fromUTF8? bytes).map fun s => unifyLineEnds s.toList

namespace Job

def notes (j : Job) (text : Text) : List Note := (deliverEvents text j.name j.line).map .event

def listing? (j : Job) (o : Outcome) : Option String :=
  if j.json then (successRecord o.declarations).render?.map fun s => s ++ "\n"
  else some (String.ofList (Declaration.table o.declarations))

def listed (j : Job) (o : Outcome) : Report :=
  match j.listing? o with
  | some s => { ending := .exit 0, stdout := s }
  | none => { ending := .crash (.number .unprintable) }

def success (j : Job) (log : Journal) (text : Text) (o : Outcome) : Report :=
  let logged := log.text j.level (j.notes text ++ [.count j.source.text o.declarations.length])
  match j.output with
  | some .dropped => { ending := .crash .noOutput, stderr := logged }
  | none => { j.listed o with stderr := logged }
  | some (.value p) =>
    { j.listed o with stderr := logged, output := some (p, String.ofList o.code) }

def diagnosis? (j : Job) (d : Diagnostic) : Option String :=
  if j.json then (failureRecord d).render? else d.text?

def failure (j : Job) (log : Journal) (text : Text) (x : Raised) : Report :=
  let logged := log.text j.level (j.notes text)
  match x with
  | .number fault => { ending := .crash (.number fault), stderr := logged }
  | .located e =>
    match j.diagnosis? e.diagnostic with
    | none => { ending := .crash (.number .unprintable), stderr := logged }
    | some s =>
      if j.json then { ending := .exit 1, stdout := s ++ "\n", stderr := logged }
      else { ending := .exit 1, stderr := logged ++ s ++ "\n" }

def report (j : Job) (log : Journal) (text : Text) : Report :=
  match deliver text j.name j.line with
  | .ok o => j.success log text o
  | .error x => j.failure log text x

def reportSource (j : Job) (log : Journal) : Except FileFault ByteArray → Report
  | .error fault => { ending := .crash (.file fault j.source) }
  | .ok bytes =>
    match decode? bytes with
    | none => { ending := .crash .undecodable }
    | some text => j.report log text

end Job

def Report.failWrite (r : Report) (p : Path) (fault : FileFault) : Report :=
  { ending := .crash (.file fault p), stderr := r.stderr }

def Report.settle (r : Report) (store : Store) : Report × Store :=
  match r.output with
  | none => (r, store)
  | some (p, text) =>
    match store.write p text.toUTF8 with
    | .ok store => (r, store)
    | .error fault => (r.failWrite p fault, store)

def run (log : Journal) (args : List String) (envLevel : Option String) (store : Store) :
    Report × Store :=
  match plan args envLevel with
  | .error r => (r, store)
  | .ok j => (j.reportSource log (store.read j.source)).settle store

end AnnotatedZig.Command
