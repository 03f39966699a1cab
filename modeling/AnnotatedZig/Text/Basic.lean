/-!
# Text as a list of characters

Source text, names and documentation are lists of characters, so that every reader below is a
recursion on the text itself. This module holds the blank characters and trimming, the cut at a
separator, and the split into lines that keep their line feed.
-/

set_option autoImplicit false

namespace AnnotatedZig

abbrev Text := List Char

namespace Text

/-- Blank characters are the white space and the separators of Unicode: tabs, line and page breaks,
the four information separators, and the spaces of every width. -/
def isBlank (c : Char) : Bool :=
  let n := c.toNat
  (9 ≤ n && n ≤ 13) || (28 ≤ n && n ≤ 32) || n == 0x85 || n == 0xA0 || n == 0x1680 ||
    (0x2000 ≤ n && n ≤ 0x200A) || n == 0x2028 || n == 0x2029 || n == 0x202F || n == 0x205F ||
    n == 0x3000

def trimStart (s : Text) : Text := s.dropWhile isBlank

def trimEnd (s : Text) : Text := (s.reverse.dropWhile isBlank).reverse

def trim (s : Text) : Text := trimEnd (trimStart s)

/-- The pieces between the occurrences of `sep`; there is always one piece more than separators. -/
def cut (sep : Char) (s : Text) : List Text :=
  s.foldr (fun c pieces =>
    if c = sep then [] :: pieces
    else match pieces with
      | [] => [[c]]
      | p::ps => (c::p)::ps) [[]]

theorem cut_nil (sep : Char) : cut sep [] = [[]] := rfl

theorem cut_cons_sep (sep : Char) (s : Text) : cut sep (sep::s) = [] :: cut sep s := by
  simp [cut]

theorem cut_ne_nil (sep : Char) (s : Text) : cut sep s ≠ [] := by
  cases s with
  | nil => simp [cut]
  | cons c s =>
    rw [cut, List.foldr_cons]
    split
    · simp
    · split <;> simp

def words (s : Text) : List Text := (cut ' ' s).filter (fun w => !w.isEmpty)

def joinWith (sep : Text) (pieces : List Text) : Text := sep.intercalate pieces

def startLine (c : Char) : List Text → List Text
  | [] => [[c]]
  | l::ls => if c = '\n' then [c]::l::ls else (c::l)::ls

/-- The lines of a text, each with its line feed; only the last may lack one. -/
def splitLines (s : Text) : List Text := s.foldr startLine []

theorem splitLines_nil : splitLines [] = [] := rfl

theorem splitLines_cons (c : Char) (s : Text) :
    splitLines (c::s) = startLine c (splitLines s) := rfl

theorem flatten_startLine (c : Char) (ls : List Text) :
    (startLine c ls).flatten = c :: ls.flatten := by
  cases ls with
  | nil => rfl
  | cons l ls => by_cases h : c = '\n' <;> simp [startLine, h]

theorem flatten_splitLines (s : Text) : (splitLines s).flatten = s := by
  induction s with
  | nil => rfl
  | cons c s ih => rw [splitLines_cons, flatten_startLine, ih]

/-- The text as a terminated line: a line feed is added unless one is there. -/
def terminated (s : Text) : Text := if s.getLast? = some '\n' then s else s ++ ['\n']

end Text

end AnnotatedZig
