import AnnotatedZig.Proofs.Text.Trim
import AnnotatedZig.Proofs.ZigType

/-!
# How a type may be written

A type in source has one of three forms, each with blanks in places of its own: a scalar, a slice, or
the C string. No text has two of them, so it does not matter which is tried first. The blanks are all
that a programmer may add to the canonical spelling, and a name holds none.
-/

set_option autoImplicit false

namespace AnnotatedZig

theorem Scalar.ofSpelling_eq_some_iff (text : Text) (s : Scalar) :
    ofSpelling? text = some s ↔ text = s.spelling := by
  constructor
  · intro h
    simpa [eq_comm] using List.find?_some h
  · rintro rfl
    cases s <;> rfl

theorem Element.ofSpelling_eq_some_iff (text : Text) (e : Element) :
    ofSpelling? text = some e ↔ text = e.scalar.spelling := by
  constructor
  · intro h
    simpa [eq_comm] using List.find?_some h
  · rintro rfl
    cases e <;> rfl

namespace ZigType

def name : ZigType → Text
  | scalar s => s.spelling
  | slice e => e.scalar.spelling
  | cString => "u8".toList

def bracket : ZigType → Text
  | scalar _ => []
  | slice _ => "[]".toList
  | cString => "[*c]".toList

theorem spelling_eq (t : ZigType) : t.spelling = t.bracket ++ t.name := by
  cases t <;> rfl

theorem name_chars (t : ZigType) : ∀ c ∈ t.name, Text.isBlank c = false := by
  intro c hc
  exact (spelling_chars t c (by rw [spelling_eq]; exact List.mem_append_right _ hc)).1

inductive Form where
  | scalar | slice | cString
  deriving DecidableEq

/-- The text is a way to write the type in one of the forms, with blanks where that form has room for
them. -/
inductive Spells : Form → Text → ZigType → Prop
  | scalar {t : ZigType} (plain : t.spelling.head? ≠ some '[') : Spells .scalar t.spelling t
  | slice {t : ZigType} {v w e : Text} (spelled : t.spelling = '[' :: ']' :: e)
      (hv : Text.Blank v) (hw : Text.Blank w) : Spells .slice ('[' :: (v ++ ']' :: (w ++ e))) t
  | cString {u v w x : Text} (hu : Text.Blank u) (hv : Text.Blank v) (hw : Text.Blank w)
      (hx : Text.Blank x) :
      Spells .cString ('[' :: (u ++ '*' :: (v ++ 'c' :: (w ++ ']' :: (x ++ "u8".toList))))) cString

def past? (c : Char) (s : Text) : Option Text :=
  match Text.trimStart s with
  | [] => none
  | d::r => if d = c then some r else none

def readAs? : Form → Text → Option ZigType
  | .scalar, s => (Scalar.ofSpelling? s).map scalar
  | .slice, '[' :: r =>
    (past? ']' r).bind fun r => (Element.ofSpelling? (Text.trimStart r)).map slice
  | .cString, '[' :: r =>
    (past? '*' r).bind fun r => (past? 'c' r).bind fun r => (past? ']' r).bind fun r =>
      if Text.trimStart r = "u8".toList then some cString else none
  | _, _ => none

theorem past_trimStart_iff (c : Char) (s r : Text) :
    past? c s = some r ↔ Text.trimStart s = c::r := by
  rw [past?]
  cases Text.trimStart s with
  | nil => simp
  | cons d t => simp

theorem past_eq_some_iff (c : Char) (s r : Text) (hc : Text.isBlank c = false) :
    past? c s = some r ↔ ∃ w, Text.Blank w ∧ s = w ++ c::r := by
  rw [past_trimStart_iff, Text.trimStart_eq_cons_iff]
  exact and_iff_right hc

theorem head_scalar (s : Scalar) : s.spelling.head? ≠ some '[' := by
  cases s <;> decide

theorem readAs_scalar_iff (s : Text) (t : ZigType) :
    readAs? .scalar s = some t ↔ Spells .scalar s t := by
  rw [readAs?, Option.map_eq_some_iff]
  constructor
  · rintro ⟨a, ha, rfl⟩
    obtain rfl := (Scalar.ofSpelling_eq_some_iff s a).mp ha
    exact Spells.scalar (t := scalar a) (head_scalar a)
  · rintro ⟨plain⟩
    cases t with
    | scalar a => exact ⟨a, (Scalar.ofSpelling_eq_some_iff _ a).mpr rfl, rfl⟩
    | slice e => exact absurd rfl plain
    | cString => exact absurd rfl plain

theorem slice_of_spelling (t : ZigType) (name : Text) (h : t.spelling = '[' :: ']' :: name) :
    ∃ e : Element, t = slice e ∧ name = e.scalar.spelling := by
  cases t with
  | scalar s => exact absurd (congrArg List.head? h) (head_scalar s)
  | slice e => exact ⟨e, rfl, (List.cons.inj (List.cons.inj h).2).2.symm⟩
  | cString =>
    have hmark : '*' = ']' := (List.cons.inj (List.cons.inj h).2).1
    exact absurd hmark (by decide)

theorem element_eq_some_iff (s : Text) (e : Element) :
    Element.ofSpelling? (Text.trimStart s) = some e ↔
      ∃ w, Text.Blank w ∧ s = w ++ e.scalar.spelling := by
  rw [Element.ofSpelling_eq_some_iff]
  exact Text.trimStart_eq_word_iff s _ (spelling_ne_nil (scalar e.scalar))
    (name_chars (scalar e.scalar))

theorem readAs_open (f : Form) (s : Text) (t : ZigType) (hf : f ≠ .scalar)
    (h : readAs? f s = some t) : ∃ r, s = '[' :: r := by
  unfold readAs? at h
  split at h
  · exact absurd rfl hf
  · exact ⟨_, rfl⟩
  · exact ⟨_, rfl⟩
  · simp at h

theorem readAs_slice_iff (s : Text) (t : ZigType) :
    readAs? .slice s = some t ↔ Spells .slice s t := by
  constructor
  · intro h
    obtain ⟨r, rfl⟩ := readAs_open .slice s t (by decide) h
    obtain ⟨q, hq, hrest⟩ := Option.bind_eq_some_iff.mp h
    obtain ⟨e, he, rfl⟩ := Option.map_eq_some_iff.mp hrest
    obtain ⟨v, hv, rfl⟩ := (past_eq_some_iff ']' r q rfl).mp hq
    obtain ⟨w, hw, rfl⟩ := (element_eq_some_iff q e).mp he
    exact .slice rfl hv hw
  · intro h
    cases h with
    | @slice _ v w name spelled hv hw =>
      obtain ⟨e, rfl, rfl⟩ := slice_of_spelling t name spelled
      have hclose := (past_eq_some_iff ']' _ (w ++ e.scalar.spelling) rfl).mpr ⟨v, hv, rfl⟩
      have hname := (element_eq_some_iff _ e).mpr ⟨w, hw, rfl⟩
      rw [readAs?, hclose, Option.bind_some, hname, Option.map_some]

theorem readAs_cString_iff (s : Text) (t : ZigType) :
    readAs? .cString s = some t ↔ Spells .cString s t := by
  have hword (r : Text) : Text.trimStart r = "u8".toList ↔
      ∃ x, Text.Blank x ∧ r = x ++ "u8".toList :=
    Text.trimStart_eq_word_iff r _ (by decide) (name_chars cString)
  constructor
  · intro h
    obtain ⟨r, rfl⟩ := readAs_open .cString s t (by decide) h
    obtain ⟨a, ha, h⟩ := Option.bind_eq_some_iff.mp h
    obtain ⟨b, hb, h⟩ := Option.bind_eq_some_iff.mp h
    obtain ⟨c, hc, h⟩ := Option.bind_eq_some_iff.mp h
    obtain ⟨hu8, ht⟩ := Option.ite_none_right_eq_some.mp h
    obtain rfl := Option.some.inj ht
    obtain ⟨u, hu, rfl⟩ := (past_eq_some_iff '*' r a rfl).mp ha
    obtain ⟨v, hv, rfl⟩ := (past_eq_some_iff 'c' a b rfl).mp hb
    obtain ⟨w, hw, rfl⟩ := (past_eq_some_iff ']' b c rfl).mp hc
    obtain ⟨x, hx, rfl⟩ := (hword c).mp hu8
    exact .cString hu hv hw hx
  · intro h
    cases h with
    | @cString u v w x hu hv hw hx =>
      refine Option.bind_eq_some_iff.mpr ⟨_, (past_eq_some_iff '*' _ _ rfl).mpr ⟨u, hu, rfl⟩, ?_⟩
      refine Option.bind_eq_some_iff.mpr ⟨_, (past_eq_some_iff 'c' _ _ rfl).mpr ⟨v, hv, rfl⟩, ?_⟩
      refine Option.bind_eq_some_iff.mpr ⟨_, (past_eq_some_iff ']' _ _ rfl).mpr ⟨w, hw, rfl⟩, ?_⟩
      exact if_pos ((hword _).mpr ⟨x, hx, rfl⟩)

theorem readAs_eq_some_iff (f : Form) (s : Text) (t : ZigType) :
    readAs? f s = some t ↔ Spells f s t := by
  cases f with
  | scalar => exact readAs_scalar_iff s t
  | slice => exact readAs_slice_iff s t
  | cString => exact readAs_cString_iff s t

def markOf : Text → Option Char
  | '[' :: r => (Text.trimStart r).head?
  | _ => none

def Form.mark : Form → Option Char
  | scalar => none
  | slice => some ']'
  | cString => some '*'

theorem mark_of_spells (f : Form) (s : Text) (t : ZigType) (h : Spells f s t) :
    markOf s = f.mark := by
  cases h with
  | scalar plain =>
    unfold markOf
    split
    · next r hr => exact absurd (by rw [hr]; rfl) plain
    · rfl
  | slice spelled hv hw =>
    rw [markOf, Text.trimStart_blank _ _ hv]
    rfl
  | cString hu hv hw hx =>
    rw [markOf, Text.trimStart_blank _ _ hu]
    rfl

/-- A text has one form at most, and spells one type in it. -/
theorem spells_unique (f g : Form) (s : Text) (t u : ZigType) (hf : Spells f s t)
    (hg : Spells g s u) : f = g ∧ t = u := by
  have hmark : f.mark = g.mark :=
    (mark_of_spells f s t hf).symm.trans (mark_of_spells g s u hg)
  have hform : f = g := by
    cases f <;> cases g <;> first | rfl | exact absurd hmark (by decide)
  subst hform
  have ht := (readAs_eq_some_iff f s t).mpr hf
  have hu := (readAs_eq_some_iff f s u).mpr hg
  exact ⟨rfl, Option.some.inj (ht.symm.trans hu)⟩

theorem past_eq_none (c : Char) (s : Text) (h : ∀ r, Text.trimStart s ≠ c::r) :
    past? c s = none := by
  rw [Option.eq_none_iff_forall_ne_some]
  intro r hr
  exact h r ((past_trimStart_iff c s r).mp hr)

theorem afterStar_eq (r : Text) :
    afterStar? r = (past? 'c' r).bind fun r => (past? ']' r).bind fun r =>
      if Text.trimStart r = "u8".toList then some cString else none := by
  unfold afterStar?
  split
  · next q hq =>
    rw [(past_trimStart_iff 'c' r q).mpr hq, Option.bind_some]
    split
    · next p hp => rw [(past_trimStart_iff ']' q p).mpr hp, Option.bind_some]
    · next hp => rw [past_eq_none ']' q hp, Option.bind_none]
  · next hq => rw [past_eq_none 'c' r hq, Option.bind_none]

theorem afterBracket_eq (r : Text) :
    afterBracket? r = (readAs? .slice ('[' :: r)).or (readAs? .cString ('[' :: r)) := by
  simp only [readAs?]
  unfold afterBracket?
  split
  · next q hq =>
    have hstar : past? '*' r = none := past_eq_none '*' r (by simp [hq])
    rw [(past_trimStart_iff ']' r q).mpr hq, hstar, Option.bind_some, Option.bind_none, Option.or_none]
  · next q hq =>
    have hclose : past? ']' r = none := past_eq_none ']' r (by simp [hq])
    rw [hclose, (past_trimStart_iff '*' r q).mpr hq, Option.bind_none, Option.bind_some, Option.none_or,
      afterStar_eq]
  · next hclose hstar =>
    rw [past_eq_none ']' r hclose, past_eq_none '*' r hstar, Option.bind_none, Option.bind_none,
      Option.or_none]

theorem read_eq_findSome (text : Text) :
    read? text = [Form.scalar, Form.slice, Form.cString].findSome? (readAs? · (Text.trim text)) := by
  have horder (s : Text) : [Form.scalar, Form.slice, Form.cString].findSome? (readAs? · s) =
      (readAs? .scalar s).or ((readAs? .slice s).or (readAs? .cString s)) := by
    simp only [List.findSome?_cons, List.findSome?_nil]
    cases readAs? .scalar s <;> cases readAs? .slice s <;> cases readAs? .cString s <;> rfl
  rw [horder]
  unfold read?
  split
  · next r hr =>
    have hscalar : readAs? .scalar ('[' :: r) = none := by
      rw [Option.eq_none_iff_forall_ne_some]
      intro t ht
      rw [readAs?, Option.map_eq_some_iff] at ht
      obtain ⟨a, ha, -⟩ := ht
      have hspelling := (Scalar.ofSpelling_eq_some_iff _ a).mp ha
      exact head_scalar a (congrArg List.head? hspelling).symm
    rw [hr, hscalar, Option.none_or, afterBracket_eq]
  · next hopen =>
    have hother (f : Form) (hf : f ≠ .scalar) : readAs? f (Text.trim text) = none := by
      rw [Option.eq_none_iff_forall_ne_some]
      intro t ht
      obtain ⟨r, hr⟩ := readAs_open f _ t hf ht
      exact hopen r hr
    rw [hother .slice (by decide), hother .cString (by decide), Option.or_none, Option.or_none]
    rfl

theorem findSome_readAs_iff (order : List Form) (s : Text) (t : ZigType) (h : ∀ f, f ∈ order) :
    order.findSome? (readAs? · s) = some t ↔ ∃ f, Spells f s t := by
  constructor
  · intro hfind
    obtain ⟨f, -, hf⟩ := List.exists_of_findSome?_eq_some hfind
    exact ⟨f, (readAs_eq_some_iff f s t).mp hf⟩
  · rintro ⟨f, hf⟩
    have hsome : (order.findSome? (readAs? · s)).isSome = true := by
      rw [List.findSome?_isSome_iff]
      exact ⟨f, h f, by rw [(readAs_eq_some_iff f s t).mpr hf]; rfl⟩
    obtain ⟨u, hu⟩ := Option.isSome_iff_exists.mp hsome
    obtain ⟨g, -, hg⟩ := List.exists_of_findSome?_eq_some hu
    have heq := spells_unique f g s t u hf ((readAs_eq_some_iff g s u).mp hg)
    rw [hu, heq.2]

theorem read_eq_some_iff (text : Text) (t : ZigType) :
    read? text = some t ↔ ∃ f, Spells f (Text.trim text) t := by
  rw [read_eq_findSome]
  exact findSome_readAs_iff _ _ t (fun f => by cases f <;> decide)

theorem name_of_spells (f : Form) (s : Text) (t : ZigType) (h : Spells f s t) :
    ∃ x, s = x ++ t.name ∧ Text.solid x = t.bracket := by
  have solid_open (r : Text) : Text.solid ('[' :: r) = '[' :: Text.solid r := rfl
  cases h with
  | scalar plain =>
    cases t with
    | scalar a => exact ⟨[], rfl, rfl⟩
    | slice e => exact absurd rfl plain
    | cString => exact absurd rfl plain
  | @slice _ v w name spelled hv hw =>
    obtain ⟨e, rfl, rfl⟩ := slice_of_spelling t name spelled
    refine ⟨'[' :: (v ++ ']' :: w), by simp [ZigType.name], ?_⟩
    rw [solid_open, Text.solid_mark v w ']' hv rfl, Text.solid_blank w hw]
    rfl
  | @cString u v w x hu hv hw hx =>
    refine ⟨'[' :: (u ++ '*' :: (v ++ 'c' :: (w ++ ']' :: x))), by simp [ZigType.name], ?_⟩
    rw [solid_open, Text.solid_mark u _ '*' hu rfl, Text.solid_mark v _ 'c' hv rfl,
      Text.solid_mark w x ']' hw rfl, Text.solid_blank x hx]
    rfl

theorem solid_name (t : ZigType) : Text.solid t.name = t.name :=
  Text.solid_eq_self t.name (name_chars t)

theorem solid_of_spells (f : Form) (s : Text) (t : ZigType) (h : Spells f s t) :
    Text.solid s = t.spelling := by
  obtain ⟨x, rfl, hx⟩ := name_of_spells f s t h
  rw [Text.solid_append, hx, solid_name, spelling_eq]

theorem bracket_length_le (t u : ZigType) (p q : Text) (h : u.spelling = p ++ (t.name ++ q)) :
    u.bracket.length ≤ p.length := by
  have hall : ∀ u ∈ all, ∀ t ∈ all, ∀ n < u.bracket.length,
      t.name.isPrefixOf (u.spelling.drop n) = false := by
    decide +kernel
  by_contra hlt
  have hnone := hall u (mem_all u) t (mem_all t) p.length (by omega)
  rw [h, List.drop_left, List.isPrefixOf_iff_prefix.mpr (List.prefix_append _ _)] at hnone
  simp at hnone

theorem read_broken_name (t : ZigType) (front a w b back : Text) (hname : t.name = a ++ b)
    (ha : a ≠ []) (hb : b ≠ []) (hne : w ≠ []) (hw : Text.Blank w) :
    read? (front ++ (a ++ (w ++ (b ++ back)))) = none := by
  rw [Option.eq_none_iff_forall_ne_some]
  intro u hu
  obtain ⟨f, hf⟩ := (read_eq_some_iff _ u).mp hu
  have hsolid := solid_of_spells f _ u hf
  obtain ⟨x, hx, hbracket⟩ := name_of_spells f _ u hf
  obtain ⟨p, q, hp, hq, htext⟩ := Text.eq_trim_padded (front ++ (a ++ (w ++ (b ++ back))))
  have hachars : ∀ c ∈ a, Text.isBlank c = false := fun c hc =>
    name_chars t c (hname ▸ List.mem_append_left b hc)
  have hbchars : ∀ c ∈ b, Text.isBlank c = false := fun c hc =>
    name_chars t c (hname ▸ List.mem_append_right a hc)
  -- Without the blanks the name would stand whole in the spelling of `u`, so behind its bracket.
  have hle : u.bracket.length ≤ (Text.solid front).length := by
    apply bracket_length_le t u _ (Text.solid back)
    rw [← hsolid, Text.solid_trim, hname]
    simp only [Text.solid_append, Text.solid_blank w hw, Text.solid_eq_self a hachars,
      Text.solid_eq_self b hbchars, List.nil_append, List.append_assoc]
  -- Either the first blank stands in front of the name of `u`, and `a` in its bracket; or only blanks
  -- stand behind it, `b` among them.
  obtain ⟨c, w, rfl⟩ := List.exists_cons_of_ne_nil hne
  rw [hx, List.append_assoc, ← List.append_assoc p, ← List.append_assoc front,
    List.append_eq_append_iff] at htext
  obtain ⟨k, hk, -⟩ | ⟨k, -, hrest⟩ := htext
  · have hlen := congrArg (fun s => (Text.solid s).length) hk
    simp only [Text.solid_append, Text.solid_blank p hp, hbracket, Text.solid_eq_self a hachars,
      List.length_append, List.length_nil] at hlen
    have hpos := List.length_pos_of_ne_nil ha
    omega
  · obtain ⟨d, hd⟩ := List.exists_mem_of_ne_nil b hb
    have hblank := Text.blank_behind u.name q k (w ++ (b ++ back)) c (name_chars u) hq
      (hw c List.mem_cons_self) hrest
    have hdblank := hblank d (List.mem_append_right w (List.mem_append_left back hd))
    rw [hbchars d hd] at hdblank
    exact absurd hdblank (by decide)

/-- The language of types. A text is read as a type if and only if it spells that type in one of the
forms, whichever form is tried first. No text has two forms or spells two types. What is read is the
canonical spelling but for blanks, none of them inside a name, and a canonical spelling is read back
from among blanks. -/
theorem read_language :
    (∀ text t, read? text = some t ↔ ∃ f, Spells f (Text.trim text) t) ∧
    (∀ text, read? text = none ↔ ∀ f t, ¬ Spells f (Text.trim text) t) ∧
    (∀ f g s t u, Spells f s t → Spells g s u → f = g ∧ t = u) ∧
    (∀ (order : List Form) text, (∀ f, f ∈ order) →
      order.findSome? (readAs? · (Text.trim text)) = read? text) ∧
    (∀ text t, read? text = some t → Text.solid text = t.spelling) ∧
    (∀ (t : ZigType) front a w b back, t.name = a ++ b → a ≠ [] → b ≠ [] → w ≠ [] → Text.Blank w →
      read? (front ++ (a ++ (w ++ (b ++ back)))) = none) ∧
    (∀ (t : ZigType) a b, Text.Blank a → Text.Blank b → read? (a ++ (t.spelling ++ b)) = some t) := by
  refine ⟨read_eq_some_iff, fun text => ?_, spells_unique, fun order text horder => ?_,
    fun text t ht => ?_, read_broken_name, fun t a b ha hb => ?_⟩
  · rw [Option.eq_none_iff_forall_ne_some]
    simp only [ne_eq, read_eq_some_iff, not_exists]
    exact forall_comm
  · apply Option.ext
    intro t
    rw [findSome_readAs_iff order _ t horder, read_eq_some_iff]
  · obtain ⟨f, hf⟩ := (read_eq_some_iff text t).mp ht
    rw [← Text.solid_trim, solid_of_spells f _ t hf]
  · have hself : Text.trim t.spelling = t.spelling := by
      simpa using trim_padded t [] [] (by simp) (by simp)
    have hspells := (read_eq_some_iff t.spelling t).mp (read_spelling t)
    rw [read_eq_some_iff, trim_padded t a b ha hb]
    rwa [hself] at hspells

end ZigType

end AnnotatedZig
