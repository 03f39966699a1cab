import AnnotatedZig.Command.Word
import AnnotatedZig.Text.Number

/-!
# What a command line asks for

The words are taken in order. The first plain word is the source, with a marker before or after it;
an option with a value takes the next word if that is plain. Help and a faulty option end the
reading at once, while what is left over is complained of only at the end.

The marker is never a value. An attached value that is the marker is dropped, and its option then
stands without a value: a file name is as good as not given, while a line, a level or an output is
missed where it would be used, and not before.
-/

set_option autoImplicit false

namespace AnnotatedZig.Command

/-- What an option has for its value. -/
inductive Given (α : Type) where
  | value (a : α)
  | dropped
  deriving DecidableEq

namespace Given

def ofWord (w : String) : Given String := if w = "--" then dropped else value w

def map {α β : Type} (f : α → β) : Given α → Given β
  | value a => value (f a)
  | dropped => dropped

def value? {α : Type} : Given α → Option α
  | value a => some a
  | dropped => none

end Given

structure Settings where
  source : Option String := none
  file : Option String := none
  line : Given Int := .value 1
  output : Option (Given String) := none
  json : Bool := false
  logLevel : Option (Given String) := none
  unused : List String := []
  deriving DecidableEq

structure Request where
  source : String
  file : Option String
  line : Int
  output : Option (Given String)
  json : Bool
  logLevel : Option (Given String)
  deriving DecidableEq

namespace Settings

def readLine : Given String → Except Stop (Given Int)
  | .dropped => .ok .dropped
  | .value w =>
    match Text.integer? w.toList with
    | some n => .ok (.value n)
    | none => .error (.misuse (.badLine w))

def put (setting : Setting) (word : String) (s : Settings) : Except Stop Settings :=
  match setting with
  | .file => .ok { s with file := (Given.ofWord word).value? }
  | .output => .ok { s with output := some (.ofWord word) }
  | .logLevel => .ok { s with logLevel := some (.ofWord word) }
  | .line => (readLine (.ofWord word)).map fun n => { s with line := n }

def turnOn (switch : Switch) (s : Settings) : Except Stop Settings :=
  match switch with
  | .help => .error .help
  | .json => .ok { s with json := true }

def startsPlain : List Word → Bool
  | ⟨_, .plain⟩::_ => true
  | _ => false

/-- Where the letters behind `-h` lead, in front of the other words. Each is a short option, and
help is what comes of them, unless a letter is no option, which makes the rest of the letters a
needless value, or the output, which has the rest as its value or takes the next word, misses it. -/
def cluster (rest : List Word) : List Char → Stop
  | [] => .help
  | 'h' :: r => cluster rest r
  | 'o' :: r => if r = [] && !startsPlain rest then .misuse (.missingValue .output) else .help
  | r => .misuse (.needlessValue .help (String.ofList r))

def needless (switch : Switch) (short : Bool) (value : List Char) (rest : List Word) : Stop :=
  if short && value ≠ [] then cluster rest value
  else .misuse (.needlessValue switch (String.ofList value))

def leave (ws : List Word) (s : Settings) : Settings :=
  { s with unused := s.unused ++ ws.map Word.written }

def takeMarked (marker : Word) (ws : List Word) (s : Settings) : Settings :=
  match s.source, ws with
  | none, w::ws => { s with source := some w.written }.leave ws
  | _, ws => s.leave (marker::ws)

def take : List Word → Settings → Except Stop Settings
  | [], s => .ok s
  | ⟨w, .plain⟩::ws, s =>
    match s.source with
    | some _ => take ws (s.leave [⟨w, .plain⟩])
    | none =>
      match ws with
      | ⟨_, .marker⟩::ws => .ok ({ s with source := some w }.leave ws)
      | ws => take ws { s with source := some w }
  | ⟨w, .marker⟩::ws, s => .ok (s.takeMarked ⟨w, .marker⟩ ws)
  | ⟨w, .unknown⟩::ws, s => take ws (s.leave [⟨w, .unknown⟩])
  | ⟨_, .flag (.switch f) short (some v)⟩::ws, _ => .error (needless f short v ws)
  | ⟨_, .flag (.switch f) _ none⟩::ws, s => do
    let s ← s.turnOn f
    take ws s
  | ⟨_, .flag (.setting f) _ (some v)⟩::ws, s => do
    let s ← s.put f (String.ofList v)
    take ws s
  | ⟨_, .flag (.setting f) _ none⟩::⟨v, .plain⟩::ws, s => do
    let s ← s.put f v
    take ws s
  | ⟨_, .flag (.setting f) _ none⟩::_, _ => .error (.misuse (.missingValue f))

/-- A source is needed, nothing may be left over, and lines are numbered from zero or above. -/
def request (s : Settings) : Except Stop Request :=
  match s.source, s.unused, s.line with
  | none, _, _ => .error (.misuse .noSource)
  | some _, w::ws, _ => .error (.misuse (.unrecognized (w::ws)))
  | some _, [], .dropped => .error .noLine
  | some source, [], .value n =>
    if n < 0 then .error (.misuse .negativeLine)
    else .ok { source := source, file := s.file, line := n, output := s.output, json := s.json
               logLevel := s.logLevel }

end Settings

def Request.ofArgs (args : List String) : Except Stop Request :=
  match Word.ofStrings args with
  | .error e => .error (.misuse e)
  | .ok ws => (Settings.take ws {}).bind Settings.request

end AnnotatedZig.Command
