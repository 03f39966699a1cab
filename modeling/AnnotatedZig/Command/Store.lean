import AnnotatedZig.Text.Quoted

/-!
# Paths and a store of files

A path is kept in its normal form: empty and single-dot steps go, double-dot steps stay. Two
slashes at the start are kept, any other number of them counts as one.

A store has files, directories that may be empty, and a null device, which is empty and stays so. Each
stands at a place, the list of names that lead to it from the root. A path with slashes at its start
leads from the root, any other one from the home directory, and a double-dot step leads back to the
directory above, which is the root itself above the root. All directories down to home are there.
There are no links, and every file may be read and written.
-/

set_option autoImplicit false

namespace AnnotatedZig.Command

structure Path where
  root : String
  steps : List String
  deriving DecidableEq

namespace Path

def rootOf (s : List Char) : String :=
  match (s.takeWhile (· = '/')).length with
  | 0 => ""
  | 2 => "//"
  | _ => "/"

def ofString (s : String) : Path where
  root := rootOf s.toList
  steps := ((Text.cut '/' s.toList).map String.ofList).filter fun step => step ≠ "" && step ≠ "."

/-- The normal form; the empty path is the single dot. -/
def text (p : Path) : String :=
  if p.root = "" ∧ p.steps = [] then "." else p.root ++ "/".intercalate p.steps

end Path

inductive FileFault where
  | missing | directory | throughFile | nameTooLong | nulInName
  deriving DecidableEq

namespace FileFault

def numbered (number reason : String) (path : String) : String :=
  "[Errno " ++ number ++ "] " ++ reason ++ ": " ++ Text.quoted path

def message (path : String) : FileFault → String
  | missing => numbered "2" "No such file or directory" path
  | directory => numbered "21" "Is a directory" path
  | throughFile => numbered "20" "Not a directory" path
  | nameTooLong => numbered "36" "File name too long" path
  | nulInName => "embedded null byte"

end FileFault

inductive Entry where
  | file (bytes : ByteArray)
  | directory
  | nullDevice

structure Store where
  home : List String
  entries : List (List String × Entry)

namespace Store

/-- What a path leads to; a free place is one where a file can be made. -/
inductive Node where
  | file (place : List String) (bytes : ByteArray)
  | directory
  | free (place : List String)
  | nullDevice

def stepLimit : Nat := 255

def pathLimit : Nat := 4095

def lookup (s : Store) (place : List String) : Option Entry :=
  if place.isPrefixOf s.home then some .directory
  else (s.entries.find? fun e => e.1 = place).map Prod.snd

/-- What the steps lead to from the directory `here`. -/
def walk (s : Store) (here : List String) : List String → Except FileFault Node
  | [] => .ok .directory
  | step::rest =>
    if stepLimit < step.utf8ByteSize then .error .nameTooLong
    else if step = ".." then walk s here.dropLast rest
    else match s.lookup (here ++ [step]), rest with
      | some .directory, rest => walk s (here ++ [step]) rest
      | some (.file bytes), [] => .ok (.file (here ++ [step]) bytes)
      | some .nullDevice, [] => .ok .nullDevice
      | some _, _ => .error .throughFile
      | none, [] => .ok (.free (here ++ [step]))
      | none, _ => .error .missing

def node (s : Store) (p : Path) : Except FileFault Node :=
  if '\x00' ∈ p.text.toList then .error .nulInName
  else if pathLimit < p.text.utf8ByteSize then .error .nameTooLong
  else s.walk (if p.root = "" then s.home else []) p.steps

def read (s : Store) (p : Path) : Except FileFault ByteArray := do
  match ← s.node p with
  | .file _ bytes => return bytes
  | .directory => throw .directory
  | .free _ => throw .missing
  | .nullDevice => return .empty

def set (s : Store) (place : List String) (bytes : ByteArray) : Store :=
  { s with entries := s.entries.filter (fun e => e.1 ≠ place) ++ [(place, .file bytes)] }

def write (s : Store) (p : Path) (bytes : ByteArray) : Except FileFault Store := do
  match ← s.node p with
  | .file place _ => return s.set place bytes
  | .directory => throw .directory
  | .free place => return s.set place bytes
  | .nullDevice => return s

end Store

end AnnotatedZig.Command
