import AnnotatedZig.Text.Basic

/-!
# The types of a native function

A closed vocabulary: scalars, slices of some of them, and the C string. Every type has one
canonical spelling. `read?` accepts that spelling as a programmer may set it, with blank space
around it and around the marks of a bracket, and nothing else.
-/

set_option autoImplicit false

namespace AnnotatedZig

inductive Scalar where
  | bool | void
  | u8 | i32 | i64 | cInt | cLong | isize | usize
  | f16 | f32 | f64
  | beamEnv | beamPid | beamAtom | beamTerm | beamBinary | beamRes
  | nifEnv | nifTerm | nifPid | nifBinary
  deriving DecidableEq

namespace Scalar

def spelling : Scalar → Text
  | bool => "bool".toList
  | void => "void".toList
  | u8 => "u8".toList
  | i32 => "i32".toList
  | i64 => "i64".toList
  | cInt => "c_int".toList
  | cLong => "c_long".toList
  | isize => "isize".toList
  | usize => "usize".toList
  | f16 => "f16".toList
  | f32 => "f32".toList
  | f64 => "f64".toList
  | beamEnv => "beam.env".toList
  | beamPid => "beam.pid".toList
  | beamAtom => "beam.atom".toList
  | beamTerm => "beam.term".toList
  | beamBinary => "beam.binary".toList
  | beamRes => "beam.res".toList
  | nifEnv => "?*e.ErlNifEnv".toList
  | nifTerm => "e.ErlNifTerm".toList
  | nifPid => "e.ErlNifPid".toList
  | nifBinary => "e.ErlNifBinary".toList

def all : List Scalar :=
  [bool, void, u8, i32, i64, cInt, cLong, isize, usize, f16, f32, f64,
    beamEnv, beamPid, beamAtom, beamTerm, beamBinary, beamRes,
    nifEnv, nifTerm, nifPid, nifBinary]

theorem mem_all (s : Scalar) : s ∈ all := by cases s <;> decide

def ofSpelling? (text : Text) : Option Scalar := all.find? (fun s => s.spelling = text)

end Scalar

inductive Element where
  | u8 | cInt | cLong | i32 | i64 | f16 | f32 | f64 | beamTerm
  deriving DecidableEq

namespace Element

def scalar : Element → Scalar
  | u8 => .u8
  | cInt => .cInt
  | cLong => .cLong
  | i32 => .i32
  | i64 => .i64
  | f16 => .f16
  | f32 => .f32
  | f64 => .f64
  | beamTerm => .beamTerm

def all : List Element := [u8, cInt, cLong, i32, i64, f16, f32, f64, beamTerm]

theorem mem_all (e : Element) : e ∈ all := by cases e <;> decide

def ofSpelling? (text : Text) : Option Element := all.find? (fun e => e.scalar.spelling = text)

end Element

inductive ZigType where
  | scalar (s : Scalar)
  | slice (e : Element)
  | cString
  deriving DecidableEq

namespace ZigType

def spelling : ZigType → Text
  | scalar s => s.spelling
  | slice e => '[' :: ']' :: e.scalar.spelling
  | cString => "[*c]u8".toList

def all : List ZigType := Scalar.all.map scalar ++ Element.all.map slice ++ [cString]

theorem mem_all (t : ZigType) : t ∈ all := by
  cases t <;> simp [all, Scalar.mem_all, Element.mem_all]

def ofSpelling? (text : Text) : Option ZigType := all.find? (fun t => t.spelling = text)

def isSlice : ZigType → Bool
  | slice _ => true
  | _ => false

def element : ZigType → Option ZigType
  | slice e => some (scalar e.scalar)
  | _ => none

/-- The environment handles, which the runtime supplies and no caller passes. -/
def isEnvHandle (t : ZigType) : Bool := t = scalar .beamEnv || t = scalar .nifEnv

/-- A leading environment handle, and the parameters that a caller passes. -/
def splitEnv : List ZigType → Option ZigType × List ZigType
  | [] => (none, [])
  | t::ts => if t.isEnvHandle then (some t, ts) else (none, t::ts)

def afterStar? (text : Text) : Option ZigType :=
  match Text.trimStart text with
  | 'c' :: r =>
    match Text.trimStart r with
    | ']' :: r => if Text.trimStart r = "u8".toList then some cString else none
    | _ => none
  | _ => none

def afterBracket? (text : Text) : Option ZigType :=
  match Text.trimStart text with
  | ']' :: r => (Element.ofSpelling? (Text.trimStart r)).map slice
  | '*' :: r => afterStar? r
  | _ => none

/-- Reads a type as written in source. -/
def read? (text : Text) : Option ZigType :=
  match Text.trim text with
  | '[' :: r => afterBracket? r
  | s => (Scalar.ofSpelling? s).map scalar

end ZigType

end AnnotatedZig
