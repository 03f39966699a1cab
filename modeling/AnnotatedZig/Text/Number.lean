import AnnotatedZig.Text.Basic

/-!
# Numbers as text

A number is read and printed in at most 4300 decimal digits. What a tag gives is a plain run of
digits, leading zeros allowed; what a user gives may have blanks around it, a sign right before the
digits, single underscores between digits, and digits of any script. A printed number counts its
digits without the sign.
-/

set_option autoImplicit false

namespace AnnotatedZig.Text

/-- The most digits that a number may have in writing, leading zeros counted. -/
def digitLimit : Nat := 4300

inductive NumberFault where
  | unreadable (digits : Nat)
  | unprintable
  deriving DecidableEq

def longNumeralMessage (length : Nat) : String :=
  "Exceeds the limit (4300 digits) for integer string conversion: value has " ++ toString length ++
    " digits; use sys.set_int_max_str_digits() to increase the limit"

def NumberFault.message : NumberFault → String
  | unreadable n => longNumeralMessage n
  | unprintable =>
    "Exceeds the limit (4300 digits) for integer string conversion; " ++
      "use sys.set_int_max_str_digits() to increase the limit"

/-- The number that a run of digits denotes, or the length of a run that is too long. -/
def readNumeral (digits : Text) : Except Nat Nat :=
  if digits.length ≤ digitLimit then .ok (Nat.ofDigitChars 10 digits 0) else .error digits.length

def Prints (n : Int) : Prop := (Nat.toDigits 10 n.natAbs).length ≤ digitLimit

instance (n : Int) : Decidable (Prints n) := inferInstanceAs (Decidable (_ ≤ _))

def printed? (n : Int) : Option String := if Prints n then some (toString n) else none

theorem printed_of_prints (n : Int) (h : Prints n) : printed? n = some (toString n) := if_pos h

theorem printed_eq_none (n : Int) (h : ¬ Prints n) : printed? n = none := if_neg h

/-- The decimal digits of Unicode 14.0 come in sets of ten, in order of value. These are the zeros. -/
def digitZeros : List Nat := [
  0x30, 0x660, 0x6F0, 0x7C0, 0x966, 0x9E6, 0xA66, 0xAE6, 0xB66, 0xBE6, 0xC66, 0xCE6, 0xD66, 0xDE6,
  0xE50, 0xED0, 0xF20, 0x1040, 0x1090, 0x17E0, 0x1810, 0x1946, 0x19D0, 0x1A80, 0x1A90, 0x1B50,
  0x1BB0, 0x1C40, 0x1C50, 0xA620, 0xA8D0, 0xA900, 0xA9D0, 0xA9F0, 0xAA50, 0xABF0, 0xFF10, 0x104A0,
  0x10D30, 0x11066, 0x110F0, 0x11136, 0x111D0, 0x112F0, 0x11450, 0x114D0, 0x11650, 0x116C0,
  0x11730, 0x118E0, 0x11950, 0x11C50, 0x11D50, 0x11DA0, 0x16A60, 0x16AC0, 0x16B50, 0x1D7CE,
  0x1D7D8, 0x1D7E2, 0x1D7EC, 0x1D7F6, 0x1E140, 0x1E2F0, 0x1E950, 0x1FBF0]

def digitValue? (c : Char) : Option Nat :=
  (digitZeros.find? fun z => z ≤ c.toNat && c.toNat < z+10).map fun z => c.toNat - z

def isDecimalDigit (c : Char) : Bool := (digitValue? c).isSome

/-- The blanks around a number are those of text without the four information separators. -/
def isPadding (c : Char) : Bool := isBlank c && !(28 ≤ c.toNat && c.toNat ≤ 31)

def trimPadding (s : Text) : Text :=
  ((s.dropWhile isPadding).reverse.dropWhile isPadding).reverse

/-- The values of the digits; no piece between underscores may be empty. -/
def digitValues? (s : Text) : Option (List Nat) :=
  let pieces := cut '_' s
  if [] ∈ pieces then none else pieces.flatten.mapM digitValue?

def magnitude? (s : Text) : Option Nat :=
  (digitValues? s).bind fun ds =>
    if ds.length ≤ digitLimit then some (ds.foldl (fun n d => 10*n+d) 0) else none

def integer? (s : Text) : Option Int :=
  match trimPadding s with
  | '-' :: r => (magnitude? r).map fun n => -(n : Int)
  | '+' :: r => (magnitude? r).map fun n => (n : Int)
  | r => (magnitude? r).map fun n => (n : Int)

end AnnotatedZig.Text
