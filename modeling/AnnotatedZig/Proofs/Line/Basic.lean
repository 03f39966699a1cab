import AnnotatedZig.Line.Basic
import Mathlib.Data.List.TakeWhile

/-!
# Pieces of a line, read back

Each reader of a piece takes what was put there and leaves the rest, if the rest cannot be taken for
more of the same; and what it takes was there. For the same reason two ways to cut a piece off a text
are one.
-/

set_option autoImplicit false

namespace AnnotatedZig

theorem Text.terminated_ended (s : Text) : terminated (s ++ ['\n']) = s ++ ['\n'] := by
  simp [terminated]

namespace Line

theorem body_ended (s : Text) (h : '\n' ∉ s) : body? (s ++ ['\n']) = some s := by
  have hs : ∀ c ∈ s, decide (c ≠ '\n') = true := by
    intro c hc
    simpa using ne_of_mem_of_not_mem hc h
  have hrest : (s ++ ['\n']).dropWhile (· ≠ '\n') = ['\n'] := by
    rw [List.dropWhile_append_of_pos hs]
    rfl
  have htext : (s ++ ['\n']).takeWhile (· ≠ '\n') = s := by
    rw [List.takeWhile_append_of_pos hs]
    simp
  rw [body?, hrest, htext]
  rfl

theorem skipSpaces_cons (c : Char) (s : Text) (h : c ≠ ' ') : skipSpaces (c::s) = c::s := by
  simp [skipSpaces, h]

theorem run_append (p : Char → Bool) (w s : Text) (hne : w ≠ []) (hw : ∀ c ∈ w, p c = true)
    (hs : ∀ c, s.head? = some c → p c = false) : run? p (w ++ s) = some (w, s) := by
  have htake : s.takeWhile p = [] := by
    cases s with
    | nil => rfl
    | cons c s => simp [hs c rfl]
  have hdrop : s.dropWhile p = s := by
    cases s with
    | nil => rfl
    | cons c s => simp [hs c rfl]
  rw [run?, List.takeWhile_append_of_pos hw, List.dropWhile_append_of_pos hw, htake, hdrop,
    List.append_nil, if_neg hne]

structure IsName (w : Text) : Prop where
  ne : w ≠ []
  chars : ∀ c ∈ w, isNameChar c = true

instance (w : Text) : Decidable (IsName w) :=
  decidable_of_iff (w ≠ [] ∧ w.all isNameChar = true)
    ⟨fun h => ⟨h.1, List.all_eq_true.mp h.2⟩, fun h => ⟨h.ne, List.all_eq_true.mpr h.chars⟩⟩

theorem skipSpaces_run (p : Char → Bool) (w s : Text) (hp : p ' ' = false) (hne : w ≠ [])
    (hw : ∀ c ∈ w, p c = true) : skipSpaces (w ++ s) = w ++ s := by
  obtain ⟨c, w, rfl⟩ := List.exists_cons_of_ne_nil hne
  apply skipSpaces_cons
  rintro rfl
  simp [hw ' ' (by simp)] at hp

/-- A run of `p` can be cut off in one way only, if no more of `p` follows. -/
theorem run_unique (p : Char → Bool) (v w s t : Text) (hv : ∀ c ∈ v, p c = true)
    (hw : ∀ c ∈ w, p c = true) (hs : ∀ c, s.head? = some c → p c = false)
    (ht : ∀ c, t.head? = some c → p c = false) (h : v ++ s = w ++ t) : v = w ∧ s = t := by
  induction v generalizing w with
  | nil =>
    cases w with
    | nil => exact ⟨rfl, h⟩
    | cons c w =>
      have hc := hs c (by simpa using congrArg List.head? h)
      simp [hw c (by simp)] at hc
  | cons c v ih =>
    rw [List.forall_mem_cons] at hv
    cases w with
    | nil =>
      have hc := ht c (by simpa using (congrArg List.head? h).symm)
      simp [hv.1] at hc
    | cons d w =>
      rw [List.forall_mem_cons] at hw
      obtain ⟨rfl, hrest⟩ := List.cons.inj h
      obtain ⟨rfl, hst⟩ := ih w hv.2 hw.2 hrest
      exact ⟨rfl, hst⟩

theorem run_mark_unique (p : Char → Bool) (m : Char) (v w s t : Text) (hv : ∀ c ∈ v, p c = true)
    (hw : ∀ c ∈ w, p c = true) (hm : p m = false) (h : v ++ m::s = w ++ m::t) : v = w ∧ s = t := by
  have hend (r : Text) : ∀ c, (m::r).head? = some c → p c = false := by
    rintro c ⟨⟩
    exact hm
  obtain ⟨hvw, hst⟩ := run_unique p v w (m::s) (m::t) hv hw (hend s) (hend t) h
  exact ⟨hvw, (List.cons.inj hst).2⟩

theorem run_eq_some_iff (p : Char → Bool) (s w r : Text) :
    run? p s = some (w, r) ↔
      w ≠ [] ∧ (∀ c ∈ w, p c = true) ∧ (∀ c, r.head? = some c → p c = false) ∧ s = w ++ r := by
  constructor
  · intro h
    rw [run?] at h
    split at h
    · simp at h
    · next hne =>
      obtain ⟨rfl, rfl⟩ := Prod.mk.inj (Option.some.inj h)
      refine ⟨hne, fun c hc => List.mem_takeWhile_imp hc, fun c hc => ?_,
        List.takeWhile_append_dropWhile.symm⟩
      simpa [hc] using List.head?_dropWhile_not p s
  · rintro ⟨hne, hw, hr, rfl⟩
    exact run_append p w r hne hw hr

def spaces (n : Nat) : Text := List.replicate n ' '

theorem mem_spaces (n : Nat) (c : Char) (h : c ∈ spaces n) : c = ' ' := List.eq_of_mem_replicate h

theorem skipSpaces_spaces (n : Nat) (s : Text) : skipSpaces (spaces n ++ s) = skipSpaces s := by
  apply List.dropWhile_append_of_pos
  intro c hc
  simpa using mem_spaces n c hc

theorem spaces_of_skipSpaces (s : Text) : ∃ n, s = spaces n ++ skipSpaces s := by
  have hall : s.takeWhile (· = ' ') = spaces (s.takeWhile (· = ' ')).length := by
    apply List.eq_replicate_of_mem
    intro c hc
    simpa using List.mem_takeWhile_imp hc
  refine ⟨(s.takeWhile (· = ' ')).length, ?_⟩
  rw [← hall]
  exact List.takeWhile_append_dropWhile.symm

theorem spaces_unique (m n : Nat) (s t : Text) (hs : s.head? ≠ some ' ') (ht : t.head? ≠ some ' ')
    (h : spaces m ++ s = spaces n ++ t) : m = n ∧ s = t := by
  have hspaces (n : Nat) : ∀ c ∈ spaces n, decide (c = ' ') = true := by
    intro c hc
    simpa using mem_spaces n c hc
  have hother (u : Text) (hu : u.head? ≠ some ' ') :
      ∀ c, u.head? = some c → decide (c = ' ') = false := by
    rintro c hc
    simpa using fun heq : c = ' ' => hu (heq ▸ hc)
  obtain ⟨hmn, hst⟩ := run_unique _ _ _ s t (hspaces m) (hspaces n) (hother s hs) (hother t ht) h
  exact ⟨by simpa [spaces] using congrArg List.length hmn, hst⟩

theorem run_spaces_iff (p : Char → Bool) (s w r : Text) (hp : p ' ' = false) :
    run? p (skipSpaces s) = some (w, r) ↔
      w ≠ [] ∧ (∀ c ∈ w, p c = true) ∧ (∀ c, r.head? = some c → p c = false) ∧
        ∃ n, s = spaces n ++ (w ++ r) := by
  rw [run_eq_some_iff]
  constructor
  · rintro ⟨hne, hw, hr, hs⟩
    obtain ⟨n, hn⟩ := spaces_of_skipSpaces s
    exact ⟨hne, hw, hr, n, by rw [← hs, ← hn]⟩
  · rintro ⟨hne, hw, hr, n, rfl⟩
    rw [skipSpaces_spaces, skipSpaces_run p w r hp hne hw]
    exact ⟨hne, hw, hr, rfl⟩

theorem name_eq_some_iff (s w r : Text) :
    name? s = some (w, r) ↔
      IsName w ∧ (∀ c, r.head? = some c → isNameChar c = false) ∧ ∃ n, s = spaces n ++ (w ++ r) := by
  rw [name?, run_spaces_iff isNameChar s w r rfl]
  constructor
  · rintro ⟨hne, hw, hrest⟩
    exact ⟨⟨hne, hw⟩, hrest⟩
  · rintro ⟨hw, hrest⟩
    exact ⟨hw.ne, hw.chars, hrest⟩

theorem word_spaces_iff (w : Text) (c : Char) (s r : Text) (hc : c ≠ ' ') :
    word? (c::w) (skipSpaces s) = some r ↔ ∃ n, s = spaces n ++ (c::w ++ r) := by
  rw [word?_eq_some_iff]
  constructor
  · intro h
    obtain ⟨n, hn⟩ := spaces_of_skipSpaces s
    exact ⟨n, by rw [← h, ← hn]⟩
  · rintro ⟨n, rfl⟩
    rw [skipSpaces_spaces, List.cons_append, skipSpaces_cons c _ hc]

theorem mark_eq_some_iff (c : Char) (s r : Text) (hc : c ≠ ' ') :
    mark? c s = some r ↔ ∃ n, s = spaces n ++ c::r :=
  word_spaces_iff [] c s r hc

theorem not_mem_name (w : Text) (h : IsName w) (c : Char) (hc : isNameChar c = false) : c ∉ w := by
  intro hm
  simp [h.chars c hm] at hc

end Line

end AnnotatedZig
