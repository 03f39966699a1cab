import AnnotatedZig.Text.Basic
import Mathlib.Data.List.Basic
import Mathlib.Data.List.DropRight
import Mathlib.Data.List.TakeWhile

/-!
# Trimming

Blanks in front and behind are what trimming takes, and nothing else. So it changes nothing of what a
text is without its blanks.
-/

set_option autoImplicit false

namespace AnnotatedZig.Text

theorem trimStart_cons (c : Char) (s : Text) (h : isBlank c = false) :
    trimStart (c::s) = c::s := by
  simp [trimStart, h]

theorem trimStart_blank (a s : Text) (h : ∀ c ∈ a, isBlank c = true) :
    trimStart (a ++ s) = trimStart s :=
  List.dropWhile_append_of_pos h

theorem trimEnd_cons (c : Char) (s : Text) (h : isBlank c = false) :
    trimEnd (c::s) = c :: trimEnd s := by
  rw [trimEnd, trimEnd, List.reverse_cons, List.dropWhile_append]
  cases hs : s.reverse.dropWhile isBlank with
  | nil => simp [h]
  | cons d r => simp

theorem trimEnd_blank (b : Text) (h : ∀ c ∈ b, isBlank c = true) : trimEnd b = [] := by
  have hb : ∀ c ∈ b.reverse, isBlank c = true := by simpa using h
  rw [trimEnd, List.dropWhile_eq_nil_iff.mpr hb]
  rfl

theorem trimEnd_append (w s : Text) (h : ∀ c ∈ w, isBlank c = false) :
    trimEnd (w ++ s) = w ++ trimEnd s := by
  induction w with
  | nil => rfl
  | cons c w ih =>
    rw [List.forall_mem_cons] at h
    rw [List.cons_append, trimEnd_cons c _ h.1, ih h.2, List.cons_append]

theorem trimEnd_pad (s b : Text) (hs : ∀ c ∈ s, isBlank c = false)
    (hb : ∀ c ∈ b, isBlank c = true) : trimEnd (s ++ b) = s := by
  rw [trimEnd_append s b hs, trimEnd_blank b hb, List.append_nil]

theorem prefix_trim (a w s : Text) (ha : ∀ c ∈ a, isBlank c = true)
    (hw : ∀ c ∈ w, isBlank c = false) : w <+: trim (a ++ (w ++ s)) := by
  cases w with
  | nil => exact List.nil_prefix
  | cons c w =>
    rw [trim, trimStart_blank a _ ha, List.cons_append, trimStart_cons c _ (hw c (by simp)),
      ← List.cons_append, trimEnd_append _ s hw]
    exact List.prefix_append _ _

theorem trimEnd_isPrefix (s : Text) : trimEnd s <+: s := List.rdropWhile_prefix isBlank s

theorem trim_subset (s : Text) : trim s ⊆ s := by
  intro c hc
  have hstart : c ∈ trimStart s := (trimEnd_isPrefix (trimStart s)).subset hc
  exact (List.dropWhile_suffix isBlank).subset hstart

theorem head_trim (s : Text) (c : Char) (h : (trim s).head? = some c) : isBlank c = false := by
  obtain ⟨t, ht⟩ := trimEnd_isPrefix (trimStart s)
  have hfirst := List.head?_dropWhile_not isBlank s
  have hstart : (s.dropWhile isBlank).head? = some c := by
    rw [← trimStart, ← ht, List.head?_append, ← trim, h, Option.some_or]
  simpa only [hstart] using hfirst

theorem trim_pad (a s b : Text) (ha : ∀ c ∈ a, isBlank c = true)
    (hs : ∀ c ∈ s, isBlank c = false) (hb : ∀ c ∈ b, isBlank c = true) :
    trim (a ++ (s ++ b)) = s := by
  rw [trim, trimStart_blank a _ ha]
  cases s with
  | nil =>
    rw [List.nil_append, trimStart, List.dropWhile_eq_nil_iff.mpr hb]
    rfl
  | cons c s =>
    rw [List.cons_append, trimStart_cons c _ (hs c (by simp)), ← List.cons_append,
      trimEnd_pad _ b hs hb]

theorem trim_space (s : Text) : trim (' '::s) = trim s := rfl

def Blank (w : Text) : Prop := ∀ c ∈ w, isBlank c = true

def solid (s : Text) : Text := s.filter fun c => !isBlank c

theorem solid_append (s t : Text) : solid (s ++ t) = solid s ++ solid t := List.filter_append s t

theorem solid_blank (w : Text) (h : Blank w) : solid w = [] := by
  rw [solid, List.filter_eq_nil_iff]
  intro c hc
  simp [h c hc]

theorem solid_eq_self (w : Text) (h : ∀ c ∈ w, isBlank c = false) : solid w = w := by
  rw [solid, List.filter_eq_self]
  intro c hc
  simp [h c hc]

theorem solid_mark (w r : Text) (c : Char) (hw : Blank w) (hc : isBlank c = false) :
    solid (w ++ c::r) = c :: solid r := by
  rw [solid_append, solid_blank w hw, List.nil_append, solid, List.filter_cons_of_pos (by simp [hc]),
    ← solid]

theorem blank_takeWhile (s : Text) : Blank (s.takeWhile isBlank) := fun _ => List.mem_takeWhile_imp

theorem trimStart_eq_cons_iff (s r : Text) (c : Char) :
    trimStart s = c::r ↔ isBlank c = false ∧ ∃ w, Blank w ∧ s = w ++ c::r := by
  constructor
  · intro h
    have hfirst := List.head?_dropWhile_not isBlank s
    rw [← trimStart, h] at hfirst
    refine ⟨by simpa using hfirst, s.takeWhile isBlank, blank_takeWhile s, ?_⟩
    rw [← h]
    exact List.takeWhile_append_dropWhile.symm
  · rintro ⟨hc, w, hw, rfl⟩
    rw [trimStart_blank w _ hw, trimStart_cons c r hc]

theorem trimStart_eq_word_iff (s w : Text) (hne : w ≠ []) (hw : ∀ c ∈ w, isBlank c = false) :
    trimStart s = w ↔ ∃ b, Blank b ∧ s = b ++ w := by
  obtain ⟨c, r, rfl⟩ := List.exists_cons_of_ne_nil hne
  rw [trimStart_eq_cons_iff]
  exact and_iff_right (hw c List.mem_cons_self)

theorem eq_trim_padded (s : Text) : ∃ a b, Blank a ∧ Blank b ∧ s = a ++ (trim s ++ b) := by
  have hblank : Blank ((trimStart s).reverse.takeWhile isBlank).reverse := by
    intro c hc
    exact blank_takeWhile _ c (List.mem_reverse.mp hc)
  have hend : trimStart s = trim s ++ ((trimStart s).reverse.takeWhile isBlank).reverse := by
    rw [trim, trimEnd, ← List.reverse_append, List.takeWhile_append_dropWhile, List.reverse_reverse]
  refine ⟨s.takeWhile isBlank, _, blank_takeWhile s, hblank, ?_⟩
  rw [← hend]
  exact List.takeWhile_append_dropWhile.symm

theorem solid_trim (s : Text) : solid (trim s) = solid s := by
  obtain ⟨a, b, ha, hb, hs⟩ := eq_trim_padded s
  conv_rhs => rw [hs]
  rw [solid_append, solid_append, solid_blank a ha, solid_blank b hb, List.nil_append,
    List.append_nil]

theorem blank_behind (w b k r : Text) (c : Char) (hw : ∀ c ∈ w, isBlank c = false) (hb : Blank b)
    (hc : isBlank c = true) (h : w ++ b = k ++ c::r) : Blank r := by
  induction w generalizing k with
  | nil =>
    intro d hd
    apply hb
    rw [← List.nil_append b, h]
    exact List.mem_append_right k (List.mem_cons_of_mem c hd)
  | cons d w ih =>
    rw [List.forall_mem_cons] at hw
    cases k with
    | nil =>
      obtain rfl := (List.cons.inj h).1
      rw [hw.1] at hc
      exact absurd hc (by decide)
    | cons e k => exact ih k hw.2 (List.cons.inj h).2

end AnnotatedZig.Text
