import AnnotatedZig.Text.Basic
import Mathlib.Data.List.Basic

/-!
# The lines of a text

A list of texts is the split of some text exactly when each of them is a line and all but the last
end in a line feed. Leaving lines out keeps such a list one, so a text that is put together from
some of the lines of another splits into those lines again.
-/

set_option autoImplicit false

namespace AnnotatedZig.Text

/-- A line is not empty, and a line feed can only be its last character. -/
def IsLine (t : Text) : Prop := t ≠ [] ∧ '\n' ∉ t.dropLast

def Ended (t : Text) : Prop := t.getLast? = some '\n'

def AreLines (ts : List Text) : Prop := (∀ t ∈ ts, IsLine t) ∧ ts.Pairwise fun t _ => Ended t

theorem areLines_nil : AreLines [] := ⟨by simp, .nil⟩

theorem areLines_cons (t : Text) (ts : List Text) :
    AreLines (t::ts) ↔ IsLine t ∧ (ts ≠ [] → Ended t) ∧ AreLines ts := by
  simp only [AreLines, List.forall_mem_cons, List.pairwise_cons]
  constructor
  · rintro ⟨⟨ht, hts⟩, he, hp⟩
    have hended : ts ≠ [] → Ended t := by
      intro hne
      obtain ⟨u, hu⟩ := List.exists_mem_of_ne_nil ts hne
      exact he u hu
    exact ⟨ht, hended, hts, hp⟩
  · rintro ⟨ht, he, hts, hp⟩
    exact ⟨⟨ht, hts⟩, fun u hu => he (List.ne_nil_of_mem hu), hp⟩

theorem areLines_sublist (ts us : List Text) (h : ts.Sublist us) (hu : AreLines us) :
    AreLines ts :=
  ⟨fun t ht => hu.1 t (h.subset ht), hu.2.sublist h⟩

theorem pairwise_ended_iff (ts : List Text) :
    (ts.Pairwise fun t _ => Ended t) ↔ ∀ t ∈ ts.dropLast, Ended t := by
  induction ts with
  | nil => simp
  | cons t ts ih =>
    cases ts with
    | nil => simp
    | cons u us =>
      have hbefore : (∀ v ∈ u::us, Ended t) ↔ Ended t :=
        ⟨fun h => h u List.mem_cons_self, fun h _ _ => h⟩
      rw [List.pairwise_cons, ih, hbefore, List.dropLast_cons_cons, List.forall_mem_cons]

theorem areLines_of_ended (ts : List Text) (h : ∀ t ∈ ts, IsLine t ∧ Ended t) : AreLines ts := by
  refine ⟨fun t ht => (h t ht).1, (pairwise_ended_iff ts).mpr fun t ht => ?_⟩
  exact (h t (List.dropLast_subset ts ht)).2

theorem areLines_ended (ts : List Text) (h : ∀ t ∈ ts, ∃ l, '\n' ∉ l ∧ l ++ ['\n'] = t) :
    AreLines ts := by
  apply areLines_of_ended
  intro t ht
  obtain ⟨l, hl, rfl⟩ := h t ht
  exact ⟨by simpa [IsLine] using hl, by simp [Ended]⟩

theorem areLines_startLine (c : Char) (ts : List Text) (h : AreLines ts) :
    AreLines (startLine c ts) := by
  cases ts with
  | nil => simp [startLine, areLines_cons, areLines_nil, IsLine]
  | cons t ts =>
    obtain ⟨⟨hne, hfeed⟩, he, hts⟩ := (areLines_cons t ts).mp h
    by_cases hc : c = '\n'
    · subst hc
      rw [startLine, if_pos rfl, areLines_cons]
      exact ⟨by simp [IsLine], fun _ => rfl, h⟩
    · rw [startLine, if_neg hc, areLines_cons]
      refine ⟨⟨by simp, ?_⟩, fun hs => ?_, hts⟩
      · simp [List.dropLast_cons_of_ne_nil hne, Ne.symm hc, hfeed]
      · rw [Ended, List.getLast?_cons_of_ne_nil hne]
        exact he hs

theorem areLines_splitLines (s : Text) : AreLines (splitLines s) := by
  induction s with
  | nil => exact areLines_nil
  | cons c s ih => exact areLines_startLine c _ ih

theorem splitLines_feed (s : Text) : splitLines ('\n'::s) = ['\n'] :: splitLines s := by
  rw [splitLines_cons]
  cases splitLines s <;> rfl

theorem splitLines_append_feed (l s : Text) (h : '\n' ∉ l) :
    splitLines (l ++ '\n'::s) = (l ++ ['\n']) :: splitLines s := by
  induction l with
  | nil => exact splitLines_feed s
  | cons c l ih =>
    obtain ⟨hc, hl⟩ := List.ne_and_not_mem_of_not_mem_cons h
    rw [List.cons_append, splitLines_cons, ih hl, startLine, if_neg (Ne.symm hc)]
    rfl

theorem splitLines_of_not_mem (l : Text) (hne : l ≠ []) (h : '\n' ∉ l) : splitLines l = [l] := by
  induction l with
  | nil => exact absurd rfl hne
  | cons c l ih =>
    obtain ⟨hc, hl⟩ := List.ne_and_not_mem_of_not_mem_cons h
    cases l with
    | nil => rfl
    | cons d l =>
      rw [splitLines_cons, ih (by simp) hl, startLine, if_neg (Ne.symm hc)]

theorem line_eq (t : Text) (h : IsLine t) (he : Ended t) : ∃ l, t = l ++ ['\n'] ∧ '\n' ∉ l :=
  ⟨t.dropLast, (List.dropLast_append_getLast? '\n' he).symm, h.2⟩

theorem splitLines_line (t : Text) (h : IsLine t) : splitLines t = [t] := by
  by_cases he : Ended t
  · obtain ⟨l, rfl, hl⟩ := line_eq t h he
    exact splitLines_append_feed l [] hl
  · apply splitLines_of_not_mem t h.1
    intro hm
    rw [← List.dropLast_append_getLast h.1, List.mem_append, List.mem_singleton] at hm
    rcases hm with hm | hm
    · exact h.2 hm
    · exact he ((List.getLast?_eq_some_getLast h.1).trans (congrArg some hm.symm))

theorem splitLines_flatten (ts : List Text) (h : AreLines ts) : splitLines ts.flatten = ts := by
  induction ts with
  | nil => rfl
  | cons t ts ih =>
    obtain ⟨ht, he, hts⟩ := (areLines_cons t ts).mp h
    cases ts with
    | nil => simpa using splitLines_line t ht
    | cons u us =>
      obtain ⟨l, rfl, hl⟩ := line_eq t ht (he (by simp))
      rw [List.flatten_cons, List.append_assoc, List.singleton_append,
        splitLines_append_feed l _ hl, ih hts]

/-- The pieces make up the text, each of them is a line, and all but the last are ended. -/
structure Splits (ts : List Text) (s : Text) : Prop where
  flatten : ts.flatten = s
  lines : ∀ t ∈ ts, IsLine t
  ended : ∀ t ∈ ts.dropLast, Ended t

theorem splits_iff (ts : List Text) (s : Text) : Splits ts s ↔ ts = splitLines s := by
  constructor
  · intro h
    have hlines : AreLines ts := ⟨h.lines, (pairwise_ended_iff ts).mpr h.ended⟩
    rw [← h.flatten, splitLines_flatten ts hlines]
  · rintro rfl
    obtain ⟨hlines, hended⟩ := areLines_splitLines s
    exact ⟨flatten_splitLines s, hlines, (pairwise_ended_iff _).mp hended⟩

/-- No line of the text is left open: it is empty, or a line feed ends it. -/
def Closed (s : Text) : Prop := s = [] ∨ Ended s

theorem closed_tail (c : Char) (s : Text) (h : Closed (c::s)) : Closed s := by
  by_cases hs : s = []
  · exact .inl hs
  · rcases h with h | h
    · simp at h
    · rw [Ended, List.getLast?_cons_of_ne_nil hs] at h
      exact .inr h

theorem ne_nil_of_closed (c : Char) (s : Text) (h : Closed (c::s)) (hc : c ≠ '\n') : s ≠ [] := by
  rintro rfl
  simp [Closed, Ended, hc] at h

theorem splitLines_ne_nil (s : Text) (h : s ≠ []) : splitLines s ≠ [] := by
  intro hnil
  have hflat := flatten_splitLines s
  rw [hnil] at hflat
  exact h hflat.symm

theorem startLine_append (c : Char) (ts us : List Text) (h : ts ≠ []) :
    startLine c (ts ++ us) = startLine c ts ++ us := by
  obtain ⟨t, ts, rfl⟩ := List.exists_cons_of_ne_nil h
  by_cases hc : c = '\n' <;> simp [startLine, hc]

theorem splitLines_append (s t : Text) (h : Closed s) :
    splitLines (s ++ t) = splitLines s ++ splitLines t := by
  induction s with
  | nil => rfl
  | cons c s ih =>
    by_cases hc : c = '\n'
    · subst hc
      rw [List.cons_append, splitLines_feed, ih (closed_tail _ s h), splitLines_feed,
        List.cons_append]
    · have hs := splitLines_ne_nil s (ne_nil_of_closed c s h hc)
      rw [List.cons_append, splitLines_cons, ih (closed_tail c s h), startLine_append c _ _ hs,
        ← splitLines_cons]

theorem closed_flatten (ts : List Text) (h : ∀ t ∈ ts, Ended t) : Closed ts.flatten := by
  rcases List.eq_nil_or_concat' ts with rfl | ⟨init, t, rfl⟩
  · exact .inl rfl
  · have ht : Ended t := h t (by simp)
    right
    rw [List.flatten_concat, Ended, List.getLast?_append, ht, Option.some_or]

theorem length_splitLines (s : Text) (h : Closed s) : (splitLines s).length = s.count '\n' := by
  induction s with
  | nil => rfl
  | cons c s ih =>
    have hlength := ih (closed_tail c s h)
    by_cases hc : c = '\n'
    · subst hc
      rw [splitLines_feed, List.length_cons, hlength, List.count_cons_self]
    · obtain ⟨l, ls, hl⟩ :=
        List.exists_cons_of_ne_nil (splitLines_ne_nil s (ne_nil_of_closed c s h hc))
      rw [List.count_cons_of_ne hc, ← hlength, splitLines_cons, hl, startLine, if_neg hc]
      rfl

end AnnotatedZig.Text
