import AnnotatedZig.Proofs.Location

/-!
# Walking through a source

A cursor stands where a line begins and knows the number of that line. It takes the text up to
behind the next line feed, or to the end where there is none, and goes on from there. Every walk
comes to the end of the source, and the lines that it takes are the one split of the source.
-/

set_option autoImplicit false

namespace AnnotatedZig

namespace Text

/-- Where the line that begins at `pos` ends: behind the next line feed, or with the text. -/
def lineEnd (s : Text) (pos : Nat) : Nat :=
  match (s.drop pos).idxOf? '\n' with
  | some i => pos + (i + 1)
  | none => s.length

theorem splitLines_drop (s : Text) (pos : Nat) (h : pos < s.length) :
    splitLines (s.drop pos) =
      s.extract pos (lineEnd s pos) :: splitLines (s.drop (lineEnd s pos)) := by
  rw [List.extract_eq_take_drop]
  cases hfeed : (s.drop pos).idxOf? '\n' with
  | some i =>
    obtain ⟨hi, hat, hbefore⟩ := List.idxOf?_eq_some_iff.mp hfeed
    have hend : lineEnd s pos = pos + (i + 1) := by simp [lineEnd, hfeed]
    have hfree : '\n' ∉ (s.drop pos).take i := by
      rw [List.mem_take_iff_getElem]
      rintro ⟨j, hj, hfound⟩
      exact hbefore j (by omega) hfound
    have hline : (s.drop pos).take (i + 1) = (s.drop pos).take i ++ ['\n'] := by
      rw [← List.take_append_getElem hi, hat]
    have hcut : s.drop pos = (s.drop pos).take i ++ '\n' :: s.drop (pos + (i + 1)) := by
      rw [← List.drop_drop, ← List.singleton_append, ← List.append_assoc, ← hline,
        List.take_append_drop]
    rw [hend, Nat.add_sub_cancel_left, hline, ← splitLines_append_feed _ _ hfree, ← hcut]
  | none =>
    have hend : lineEnd s pos = s.length := by simp [lineEnd, hfeed]
    have hne : s.drop pos ≠ [] := by simpa using h
    rw [splitLines_of_not_mem _ hne (List.idxOf?_eq_none_iff.mp hfeed), hend, List.drop_length,
      splitLines_nil, ← List.length_drop, List.take_length]

end Text

namespace SourceLine

structure Cursor where
  pos : Nat
  line : Int

def Cursor.next? (code : Text) (file : String) (c : Cursor) : Option (SourceLine × Cursor) :=
  if c.pos < code.length then
    let stop := Text.lineEnd code c.pos
    some (⟨code.extract c.pos stop, file, c.line⟩, ⟨stop, c.line + 1⟩)
  else none

/-- The lines taken from a cursor on, in a walk that has come to the end of the source. -/
inductive Walk (code : Text) (file : String) : Cursor → List SourceLine → Prop where
  | done (c : Cursor) (h : c.next? code file = none) : Walk code file c []
  | step (c d : Cursor) (l : SourceLine) (ls : List SourceLine)
      (h : c.next? code file = some (l, d)) (rest : Walk code file d ls) : Walk code file c (l::ls)

theorem ofCode_drop (code : Text) (file : String) (c : Cursor) :
    ofCode (code.drop c.pos) file c.line =
      match c.next? code file with
      | none => []
      | some (l, d) => l :: ofCode (code.drop d.pos) file d.line := by
  by_cases h : c.pos < code.length
  · simp only [Cursor.next?, if_pos h]
    rw [ofCode, Text.splitLines_drop code c.pos h, number, ← ofCode]
  · simp only [Cursor.next?, if_neg h]
    rw [List.drop_of_length_le (Nat.le_of_not_lt h)]
    rfl

theorem walk_iff (code : Text) (file : String) (c : Cursor) (ls : List SourceLine) :
    Walk code file c ls ↔ ls = ofCode (code.drop c.pos) file c.line := by
  constructor
  · intro h
    induction h with
    | done c h => rw [ofCode_drop, h]
    | step c d l ls h _ ih => rw [ofCode_drop, h, ih]
  · -- The lines that are left are the measure of the walk.
    intro h
    induction ls generalizing c with
    | nil =>
      rw [ofCode_drop] at h
      cases hnext : c.next? code file with
      | none => exact .done c hnext
      | some next => simp [hnext] at h
    | cons l ls ih =>
      rw [ofCode_drop] at h
      cases hnext : c.next? code file with
      | none => simp [hnext] at h
      | some next =>
        obtain ⟨m, d⟩ := next
        simp only [hnext, List.cons.injEq] at h
        obtain ⟨rfl, hls⟩ := h
        exact .step c d l ls hnext (ih d hls)

/-- Reading a source line by line comes to its end, with the lines that `ofCode` gives and no others.
Their texts are the only split of the source, each of them stands one line below the one before, and
a concatenation of lines is split into these again. What follows whole lines is split as if it stood
alone, numbered on behind them. -/
theorem ofCode_unique_split (code : Text) (file : String) (start : Int) :
    (∀ ls, Walk code file ⟨0, start⟩ ls ↔ ls = ofCode code file start) ∧
    (∀ ts, Text.Splits ts code ↔ ts = (ofCode code file start).map text) ∧
    (ofCode code file start).map loc =
      (List.range (ofCode code file start).length).map (fun i : Nat => ⟨file, start + i⟩) ∧
    (∀ ts, Text.Splits ts ts.flatten → ofCode ts.flatten file start = number file start ts) ∧
    (Text.Closed code → ∀ more, ofCode (code ++ more) file start =
      ofCode code file start ++ ofCode more file (start + code.count '\n')) := by
  have htexts := map_text_ofCode code file start
  refine ⟨fun ls => walk_iff code file ⟨0, start⟩ ls, fun ts => ?_, ?_, fun ts hts => ?_,
    fun hclosed more => ofCode_append code more file start hclosed⟩
  · rw [htexts, Text.splits_iff]
  · have hlength := congrArg List.length htexts
    rw [List.length_map] at hlength
    rw [hlength, ofCode, map_loc_number]
  · rw [ofCode, ← (Text.splits_iff ts ts.flatten).mp hts]

def endedLines : List Text := [['a', '\n'], ['\n']]

def openLine : Text := ['b', '\r', '\u2028', '\x0c', 'c']

theorem ofCode_unique_split_open :
    Walk (endedLines.flatten ++ openLine) "a.zig" ⟨0, -1⟩
      [⟨['a', '\n'], "a.zig", -1⟩, ⟨['\n'], "a.zig", 0⟩, ⟨openLine, "a.zig", 1⟩] ∧
    Text.Splits (endedLines ++ [openLine]) (endedLines ++ [openLine]).flatten ∧
    ofCode (endedLines ++ [openLine]).flatten "a.zig" (-1) =
      number "a.zig" (-1) (endedLines ++ [openLine]) ∧
    Text.Closed endedLines.flatten ∧
    ofCode (endedLines.flatten ++ openLine) "a.zig" (-1) =
      ofCode endedLines.flatten "a.zig" (-1) ++ ofCode openLine "a.zig" 1 := by
  obtain ⟨hwalk, -, -, hjoined, -⟩ :=
    ofCode_unique_split (endedLines.flatten ++ openLine) "a.zig" (-1)
  obtain ⟨-, -, -, -, happend⟩ := ofCode_unique_split endedLines.flatten "a.zig" (-1)
  have hsplit : Text.Splits (endedLines ++ [openLine]) (endedLines ++ [openLine]).flatten := by
    refine ⟨rfl, ?_, ?_⟩
    · simp [endedLines, openLine, Text.IsLine]
    · simp [endedLines, openLine, Text.Ended]
  have hclosed : Text.Closed endedLines.flatten := .inr rfl
  exact ⟨(hwalk _).mpr rfl, hsplit, hjoined _ hsplit, hclosed, happend hclosed openLine⟩

end SourceLine

end AnnotatedZig
