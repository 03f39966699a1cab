import AnnotatedZig.Command.Run

/-!
# What a source is read as

Bytes are read as a text if they are UTF-8. A carriage return ends a line there, with or without a
line feed behind it, and a single line feed stands for either.
-/

set_option autoImplicit false

namespace AnnotatedZig.Command

/-- The second text is the first with a line feed for every end of a line. -/
inductive LineEnds : Text → Text → Prop
  | nil : LineEnds [] []
  | pair {s t : Text} (rest : LineEnds s t) : LineEnds ('\r' :: '\n' :: s) ('\n' :: t)
  | lone {s t : Text} (alone : s.head? ≠ some '\n') (rest : LineEnds s t) :
      LineEnds ('\r' :: s) ('\n' :: t)
  | char {c : Char} {s t : Text} (other : c ≠ '\r') (rest : LineEnds s t) :
      LineEnds (c::s) (c::t)

def unifyBehind (before : Char) (s : Text) : Text :=
  ((s.zip (before::s)).filter fun p => !(p.1 = '\n' && p.2 = '\r')).map fun p =>
    if p.1 = '\r' then '\n' else p.1

theorem unifyBehind_cons (before c : Char) (s : Text) :
    unifyBehind before (c::s) =
      if c = '\n' ∧ before = '\r' then unifyBehind c s
      else (if c = '\r' then '\n' else c) :: unifyBehind c s := by
  rw [unifyBehind, List.zip_cons_cons, List.filter_cons]
  by_cases h : c = '\n' ∧ before = '\r'
  · have hdrop : (!(decide (c = '\n') && decide (before = '\r'))) = false := by simp [h]
    rw [hdrop, if_pos h]
    rfl
  · have hkeep : (!(decide (c = '\n') && decide (before = '\r'))) = true := by
      rw [Bool.not_eq_true', ← Bool.decide_and]
      exact decide_eq_false h
    rw [hkeep, if_neg h]
    rfl

theorem unifyBehind_eq (before : Char) (s : Text)
    (h : before = '\r' → s.head? ≠ some '\n') : unifyBehind before s = unifyLineEnds s := by
  cases s with
  | nil => rfl
  | cons c s =>
    have hkept : ¬ (c = '\n' ∧ before = '\r') := fun hc => h hc.2 (by simp [hc.1])
    have hfront : ¬ (c = '\n' ∧ '\n' = '\r') := fun hc => absurd hc.2 (by decide)
    have hunify : unifyLineEnds (c::s) = unifyBehind '\n' (c::s) := rfl
    rw [hunify, unifyBehind_cons, unifyBehind_cons, if_neg hkept, if_neg hfront]

theorem unifyLineEnds_cons (c : Char) (s : Text) :
    unifyLineEnds (c::s) = (if c = '\r' then '\n' else c) :: unifyBehind c s := by
  have hunify : unifyLineEnds (c::s) = unifyBehind '\n' (c::s) := rfl
  rw [hunify, unifyBehind_cons, if_neg fun hc => absurd hc.2 (by decide)]

theorem unifyLineEnds_of_lineEnds (s t : Text) (h : LineEnds s t) : unifyLineEnds s = t := by
  induction h with
  | nil => rfl
  | @pair s t _ ih =>
    have hfeed : unifyBehind '\r' ('\n' :: s) = unifyBehind '\n' s := by
      rw [unifyBehind_cons, if_pos ⟨rfl, rfl⟩]
    rw [unifyLineEnds_cons, hfeed, unifyBehind_eq _ _ fun hc => absurd hc (by decide), ih]
    rfl
  | lone alone _ ih =>
    rw [unifyLineEnds_cons, unifyBehind_eq _ _ fun _ => alone, ih]
    rfl
  | char other _ ih =>
    rw [unifyLineEnds_cons, unifyBehind_eq _ _ fun hc => absurd hc other, ih, if_neg other]

theorem lineEnds_exists (s : Text) : ∃ t, LineEnds s t := by
  induction s with
  | nil => exact ⟨[], .nil⟩
  | cons c s ih =>
    obtain ⟨t, ht⟩ := ih
    by_cases hc : c = '\r'
    · subst hc
      by_cases alone : s.head? ≠ some '\n'
      · exact ⟨'\n' :: t, .lone alone ht⟩
      · -- the line feed behind it was taken for a line end of its own
        cases ht with
        | nil => simp at alone
        | pair => simp at alone
        | lone => simp at alone
        | char _ rest =>
          obtain rfl : _ = '\n' := by simpa using alone
          exact ⟨_, .pair rest⟩
    · exact ⟨c::t, .char hc ht⟩

theorem unifyLineEnds_eq_iff (s t : Text) : unifyLineEnds s = t ↔ LineEnds s t := by
  constructor
  · rintro rfl
    obtain ⟨t, ht⟩ := lineEnds_exists s
    rwa [unifyLineEnds_of_lineEnds s t ht]
  · exact unifyLineEnds_of_lineEnds s t

theorem decode_eq_some_iff (bytes : ByteArray) (t : Text) :
    decode? bytes = some t ↔ ∃ s, String.fromUTF8? bytes = some s ∧ LineEnds s.toList t := by
  simp only [decode?, Option.map_eq_some_iff, unifyLineEnds_eq_iff]

end AnnotatedZig.Command
