import AnnotatedZig.Location
import AnnotatedZig.Proofs.Text.Lines

/-!
# Numbered lines

A text that is put behind whole lines keeps its lines, and its first line has the number that comes
after theirs. Each line stands one below the line before it, so no two lines of a source stand in
the same place.
-/

set_option autoImplicit false

namespace AnnotatedZig.SourceLine

theorem number_append (file : String) (n : Int) (ts us : List Text) :
    number file n (ts ++ us) = number file n ts ++ number file (n + ts.length) us := by
  induction ts generalizing n with
  | nil => simp [number]
  | cons t ts ih =>
    have hn : n + 1 + (ts.length : Int) = n + ((t::ts).length : Int) := by
      simp only [List.length_cons]
      omega
    rw [List.cons_append, number, ih, hn, number, List.cons_append]

theorem ofCode_append (code more : Text) (file : String) (start : Int) (h : Text.Closed code) :
    ofCode (code ++ more) file start =
      ofCode code file start ++ ofCode more file (start + code.count '\n') := by
  rw [ofCode, Text.splitLines_append code more h, number_append, Text.length_splitLines code h,
    ← ofCode, ← ofCode]

theorem ofCode_flatten (ts : List Text) (more : Text) (file : String) (start : Int)
    (h : ∀ t ∈ ts, Text.IsLine t ∧ Text.Ended t) :
    ofCode (ts.flatten ++ more) file start =
      number file start ts ++ ofCode more file (start + ts.length) := by
  have hclosed := Text.closed_flatten ts fun t ht => (h t ht).2
  have hlines := Text.areLines_of_ended ts h
  rw [ofCode, Text.splitLines_append _ _ hclosed, Text.splitLines_flatten ts hlines, number_append,
    ← ofCode]

theorem map_loc_number (file : String) (n : Int) (ts : List Text) :
    (number file n ts).map loc = (List.range ts.length).map fun i : Nat => ⟨file, n + i⟩ := by
  induction ts generalizing n with
  | nil => rfl
  | cons t ts ih =>
    rw [number, List.map_cons, ih, List.length_cons, List.range_succ_eq_map, List.map_cons,
      List.map_map]
    congr 1
    · simp
    · apply List.map_congr_left
      intro i _
      simp only [Function.comp_apply, Location.mk.injEq, true_and]
      omega

theorem loc_of_mem_number (file : String) (n : Int) (ts : List Text) (l : SourceLine)
    (h : l ∈ number file n ts) : ∃ i : Nat, i < ts.length ∧ l.loc = ⟨file, n + i⟩ := by
  have hloc : l.loc ∈ (number file n ts).map loc := List.mem_map_of_mem h
  rw [map_loc_number, List.mem_map] at hloc
  obtain ⟨i, hi, hplace⟩ := hloc
  exact ⟨i, List.mem_range.mp hi, hplace.symm⟩

theorem le_line_of_mem_number (file : String) (n : Int) (ts : List Text) :
    ∀ l ∈ number file n ts, n ≤ l.loc.line := by
  intro l hl
  obtain ⟨i, -, hloc⟩ := loc_of_mem_number file n ts l hl
  rw [hloc]
  exact Int.le_add_of_nonneg_right (Int.natCast_nonneg i)

theorem line_lt_of_mem_number (file : String) (n : Int) (ts : List Text) :
    ∀ l ∈ number file n ts, l.loc.line < n + ts.length := by
  intro l hl
  obtain ⟨i, hi, hloc⟩ := loc_of_mem_number file n ts l hl
  rw [hloc]
  exact Int.add_lt_add_left (Int.ofNat_lt.mpr hi) n

theorem file_of_mem_number (file : String) (n : Int) (ts : List Text) :
    ∀ l ∈ number file n ts, l.loc.file = file := by
  intro l hl
  obtain ⟨i, -, hloc⟩ := loc_of_mem_number file n ts l hl
  rw [hloc]

theorem splits_ofCode (code : Text) (file : String) (start : Int) :
    Text.Splits ((ofCode code file start).map text) code :=
  (Text.splits_iff _ _).mpr (map_text_ofCode code file start)

theorem file_of_mem_ofCode (code : Text) (file : String) (start : Int) :
    ∀ l ∈ ofCode code file start, l.loc.file = file :=
  file_of_mem_number file start _

theorem increasing_number (file : String) (n : Int) (ts : List Text) :
    ((number file n ts).map loc).Pairwise fun a b => a.line < b.line := by
  rw [map_loc_number, List.pairwise_map]
  exact List.pairwise_lt_range.imp fun hij => Int.add_lt_add_left (Int.ofNat_lt.mpr hij) n

theorem increasing_ofCode (code : Text) (file : String) (start : Int) :
    ((ofCode code file start).map loc).Pairwise fun a b => a.line < b.line :=
  increasing_number file start _

theorem nodup_loc_ofCode (code : Text) (file : String) (start : Int) :
    ((ofCode code file start).map loc).Nodup := by
  refine (increasing_ofCode code file start).imp fun {a b} hlt heq => ?_
  rw [heq] at hlt
  exact Int.lt_irrefl _ hlt

end AnnotatedZig.SourceLine
