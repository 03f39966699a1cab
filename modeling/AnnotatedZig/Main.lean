import AnnotatedZig.Command.Run
import Std.Time.Format

/-!
# The command itself

Reads the source that a job names, prints its report, and writes the output that it asks for.
-/

set_option autoImplicit false

namespace AnnotatedZig.Command

def levelVariable : String := "ZIGNIF_LOG_LEVEL"

def stampNow : IO String := do
  let now ← Std.Time.Timestamp.now
  let wall := now.toWallTime Std.Time.TimeZone.UTC.offset
  return (Std.Time.PlainDateTime.ofWallTime wall).format "uuuu-MM-dd HH:mm:ss,SSS"

def journalNow : IO Journal := do
  let stamp ← stampNow
  return { stamp := fun _ => stamp, lost := fun _ => "--- Logging error ---\n" }

def errorCode : IO.Error → UInt32
  | .noFileOrDirectory _ code _ => code
  | .inappropriateType _ code _ => code
  | .invalidArgument _ code _ => code
  | .resourceExhausted _ code _ => code
  | .otherError code _ => code
  | _ => 0

def faultOf (e : IO.Error) : IO FileFault :=
  match errorCode e with
  | 2 => return .missing
  | 20 => return .throughFile
  | 21 => return .directory
  | 36 => return .nameTooLong
  | _ => throw e

def attempt {α : Type} (p : Path) (act : String → IO α) : IO (Except FileFault α) := do
  if '\x00' ∈ p.text.toList then return .error .nulInName
  try
    return .ok (← act p.text)
  catch e =>
    return .error (← faultOf e)

def settleFile (r : Report) : IO Report := do
  match r.output with
  | none => return r
  | some (p, text) =>
    match ← attempt p fun name => IO.FS.writeFile name text with
    | .ok _ => return r
    | .error fault => return r.failWrite p fault

def produce (args : List String) : IO Report := do
  match plan args (← IO.getEnv levelVariable) with
  | .error r => return r
  | .ok j =>
    let source ← attempt j.source fun name => IO.FS.readBinFile name
    settleFile (j.reportSource (← journalNow) source)

def print (r : Report) : IO UInt32 := do
  IO.eprint r.stderr
  IO.print r.stdout
  match r.ending with
  | .exit code => return code.toUInt32
  | .crash c =>
    IO.eprintln (c.message?.getD "the source is not UTF-8 text")
    return 1

end AnnotatedZig.Command

def main (args : List String) : IO UInt32 := do
  AnnotatedZig.Command.print (← AnnotatedZig.Command.produce args)
