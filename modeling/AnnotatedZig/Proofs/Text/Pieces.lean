import AnnotatedZig.Text.Basic
import Mathlib.Data.List.Basic

/-!
# Cutting and joining

Joining the pieces of a text with its separator gives the text back, and cutting joined pieces gives
the pieces back, provided that the separator is in none of them.
-/

set_option autoImplicit false

namespace AnnotatedZig.Text

theorem joinWith_cons (sep t : Text) (ts : List Text) :
    joinWith sep (t::ts) = t ++ ts.flatMap (sep ++ ·) := by
  unfold joinWith
  induction ts generalizing t with
  | nil => simp
  | cons u ts ih =>
    rw [List.intercalate_cons_cons, ih, List.flatMap_cons, List.append_assoc, List.append_assoc]

theorem not_mem_joinWith (c : Char) (sep : Text) (ts : List Text) (hsep : c ∉ sep)
    (hts : ∀ t ∈ ts, c ∉ t) : c ∉ joinWith sep ts := by
  cases ts with
  | nil => simp [joinWith]
  | cons t ts =>
    rw [List.forall_mem_cons] at hts
    simpa [joinWith_cons, hsep, hts.1] using hts.2

theorem cut_cons (sep c : Char) (s p : Text) (ps : List Text) (h : c ≠ sep)
    (hs : cut sep s = p::ps) : cut sep (c::s) = (c::p)::ps := by
  rw [cut] at hs ⊢
  rw [List.foldr_cons, if_neg h, hs]

theorem cut_append_sep (sep : Char) (s t : Text) :
    cut sep (s ++ sep::t) = cut sep s ++ cut sep t := by
  induction s with
  | nil => exact cut_cons_sep sep t
  | cons c s ih =>
    by_cases h : c = sep
    · subst h
      rw [List.cons_append, cut_cons_sep, ih, cut_cons_sep, List.cons_append]
    · obtain ⟨p, ps, hs⟩ := List.exists_cons_of_ne_nil (cut_ne_nil sep s)
      rw [hs, List.cons_append] at ih
      rw [List.cons_append, cut_cons sep c _ p _ h ih, cut_cons sep c s p ps h hs,
        List.cons_append]

theorem cut_of_not_mem (sep : Char) (t : Text) (h : sep ∉ t) : cut sep t = [t] := by
  induction t with
  | nil => exact cut_nil sep
  | cons c t ih =>
    obtain ⟨hc, ht⟩ := List.ne_and_not_mem_of_not_mem_cons h
    exact cut_cons sep c t t [] (Ne.symm hc) (ih ht)

theorem cut_pieces (sep : Char) (t : Text) (ts : List Text) (ht : sep ∉ t)
    (hts : ∀ u ∈ ts, sep ∉ u) : cut sep (t ++ ts.flatMap (sep :: ·)) = t::ts := by
  induction ts generalizing t with
  | nil => simpa using cut_of_not_mem sep t ht
  | cons u ts ih =>
    rw [List.forall_mem_cons] at hts
    rw [List.flatMap_cons, List.cons_append, cut_append_sep, cut_of_not_mem sep t ht,
      ih u hts.1 hts.2, List.singleton_append]

theorem words_append_space (s t : Text) : words (s ++ ' '::t) = words s ++ words t := by
  rw [words, cut_append_sep, List.filter_append]
  rfl

theorem words_of_not_mem (w : Text) (hne : w ≠ []) (h : ' ' ∉ w) : words w = [w] := by
  rw [words, cut_of_not_mem ' ' w h]
  simpa using hne

theorem joinWith_cut (sep : Char) (s : Text) : joinWith [sep] (cut sep s) = s := by
  induction s with
  | nil => rfl
  | cons c s ih =>
    obtain ⟨p, ps, hs⟩ := List.exists_cons_of_ne_nil (cut_ne_nil sep s)
    rw [hs, joinWith_cons] at ih
    by_cases h : c = sep
    · subst h
      rw [cut_cons_sep, hs, joinWith_cons, List.flatMap_cons, List.nil_append, List.append_assoc,
        ih]
      rfl
    · rw [cut_cons sep c s p ps h hs, joinWith_cons, List.cons_append, ih]

theorem not_mem_of_mem_cut (sep : Char) (s : Text) : ∀ p ∈ cut sep s, sep ∉ p := by
  induction s with
  | nil => simp [cut_nil]
  | cons c s ih =>
    obtain ⟨p, ps, hs⟩ := List.exists_cons_of_ne_nil (cut_ne_nil sep s)
    by_cases h : c = sep
    · subst h
      rw [cut_cons_sep, List.forall_mem_cons]
      exact ⟨by simp, ih⟩
    · rw [hs, List.forall_mem_cons] at ih
      rw [cut_cons sep c s p ps h hs, List.forall_mem_cons]
      exact ⟨by simp [Ne.symm h, ih.1], ih.2⟩

theorem subset_of_mem_cut (sep : Char) (s : Text) : ∀ p ∈ cut sep s, p ⊆ s := by
  induction s with
  | nil => simp [cut_nil]
  | cons c s ih =>
    obtain ⟨p, ps, hs⟩ := List.exists_cons_of_ne_nil (cut_ne_nil sep s)
    by_cases h : c = sep
    · subst h
      rw [cut_cons_sep, List.forall_mem_cons]
      exact ⟨List.nil_subset _, fun q hq => List.subset_cons_of_subset c (ih q hq)⟩
    · rw [hs, List.forall_mem_cons] at ih
      rw [cut_cons sep c s p ps h hs, List.forall_mem_cons]
      exact ⟨List.cons_subset_cons c ih.1, fun q hq => List.subset_cons_of_subset c (ih.2 q hq)⟩

theorem cut_joinWith (sep : Char) (gap t : Text) (ts : List Text) (ht : sep ∉ t)
    (hgap : sep ∉ gap) (hts : ∀ u ∈ ts, sep ∉ u) :
    cut sep (joinWith (sep::gap) (t::ts)) = t :: ts.map (gap ++ ·) := by
  have hpieces : ∀ u ∈ ts.map (gap ++ ·), sep ∉ u := by
    intro u hu
    obtain ⟨v, hv, rfl⟩ := List.mem_map.mp hu
    simp [hgap, hts v hv]
  have hcut := cut_pieces sep t (ts.map (gap ++ ·)) ht hpieces
  rw [List.flatMap_map] at hcut
  rw [joinWith_cons]
  exact hcut

theorem joinWith_injective (sep : Char) (gap : Text) (ts us : List Text) (hgap : sep ∉ gap)
    (hts : ∀ t ∈ ts, t ≠ [] ∧ sep ∉ t) (hus : ∀ u ∈ us, u ≠ [] ∧ sep ∉ u)
    (h : joinWith (sep::gap) ts = joinWith (sep::gap) us) : ts = us := by
  cases ts with
  | nil =>
    cases us with
    | nil => rfl
    | cons u us =>
      rw [joinWith_cons] at h
      exact absurd (List.append_eq_nil_iff.mp h.symm).1 (hus u (by simp)).1
  | cons t ts =>
    rw [List.forall_mem_cons] at hts
    cases us with
    | nil =>
      rw [joinWith_cons] at h
      exact absurd (List.append_eq_nil_iff.mp h).1 hts.1.1
    | cons u us =>
      rw [List.forall_mem_cons] at hus
      have hcut := congrArg (cut sep) h
      rw [cut_joinWith sep gap t ts hts.1.2 hgap (fun v hv => (hts.2 v hv).2),
        cut_joinWith sep gap u us hus.1.2 hgap (fun v hv => (hus.2 v hv).2)] at hcut
      obtain ⟨rfl, hmap⟩ := List.cons.inj hcut
      rw [List.map_injective_iff.mpr (List.append_right_injective gap) hmap]

end AnnotatedZig.Text
