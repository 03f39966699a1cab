import AnnotatedZig.Scan.Context
import AnnotatedZig.Text.Upper

/-!
# The log

A level shows the messages of its own rank and above. Levels are named in any case. A note with a
number of too many digits cannot be written, and the log shows something else for it.
-/

set_option autoImplicit false

namespace AnnotatedZig.Command

inductive Level where
  | all | debug | info | warning | error | critical
  deriving DecidableEq

namespace Level

def rank : Level → Nat
  | all => 0
  | debug => 10
  | info => 20
  | warning => 30
  | error => 40
  | critical => 50

def table : List (String × Level) :=
  [("CRITICAL", critical), ("FATAL", critical), ("ERROR", error), ("WARN", warning),
    ("WARNING", warning), ("INFO", info), ("DEBUG", debug), ("NOTSET", all)]

def ofName (name : String) : Except String Level :=
  match table.find? fun e => e.1 = Text.upper name with
  | some e => .ok e.2
  | none => .error (Text.upper name)

def shows (threshold message : Level) : Bool := threshold.rank ≤ message.rank

end Level

inductive Note where
  | event (e : Event)
  | count (source : String) (declarations : Nat)
  deriving DecidableEq

namespace Note

def level : Note → Level
  | event _ => .debug
  | count _ _ => .info

def heading : Note → String
  | event _ => "DEBUG zignif.parser: "
  | count _ _ => "INFO zignif.zignifc: "

def text? : Note → Option String
  | event e => e.text?
  | count source n => (Text.printed? n).map fun count => source ++ ": " ++ count ++ " nif(s)"

end Note

/-- What a log has of itself: the time that each of its lines begins with, and what it shows in the
place of a note that cannot be written. -/
structure Journal where
  stamp : Nat → String
  lost : Note → String

namespace Journal

def line (log : Journal) (i : Nat) (n : Note) : String :=
  match n.text? with
  | some text => log.stamp i ++ " " ++ n.heading ++ text ++ "\n"
  | none => log.lost n

def text (log : Journal) (threshold : Level) (ns : List Note) : String :=
  String.join ((ns.filter fun n => threshold.shows n.level).mapIdx log.line)

end Journal

end AnnotatedZig.Command
