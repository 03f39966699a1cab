import AnnotatedZig.Proofs.Line.Layout
import AnnotatedZig.Proofs.Line.TagLayout
import AnnotatedZig.Proofs.Text.Trim

/-!
# Printed lines

A remark, a tag and a function header are each written in one plain way, with single spaces. What is
written so reads back as it was, if the names are names and the texts between the marks hold no
mark. One remark does not: the empty one, whose line is no documentation line.
-/

set_option autoImplicit false

namespace AnnotatedZig.Line

def spoken (remark : Text) : Text := ['/', '/', '/', ' '] ++ remark

def Tag.text (t : Tag) : Text :=
  ['/', '/', '/', ' ', 'n', 'i', 'f', ':', ' '] ++ t.name ++ '/' :: t.digits ++
    t.options.flatMap fun o => ' ' :: o.spelling

def Param.text (p : Param) : Text := p.name ++ ':' :: p.type

def Header.text (h : Header) : Text :=
  ['f', 'n', ' '] ++ h.name ++ '(' :: Text.joinWith [',', ' '] (h.params.map Param.text) ++
    ')' :: h.ret ++ h.body

structure Tag.Printable (t : Tag) : Prop where
  name : IsName t.name
  digits_ne : t.digits ≠ []
  digits : ∀ c ∈ t.digits, c.isDigit = true

structure Param.Printable (p : Param) : Prop where
  name : IsName p.name
  type_text : isText p.type = true
  type_chars : ',' ∉ p.type ∧ ')' ∉ p.type ∧ '\n' ∉ p.type

structure Header.Printable (h : Header) : Prop where
  name : IsName h.name
  params : ∀ p ∈ h.params, p.Printable
  ret_text : isText h.ret = true
  ret_chars : '\x7b' ∉ h.ret ∧ '\n' ∉ h.ret
  body_start : ∀ c, h.body.head? = some c → c = '\x7b'
  body_chars : '\n' ∉ h.body

def Tag.layout (t : Tag) (h : t.Printable) : TagLayout where
  indent := 0
  beforeMark := 1
  beforeName := 1
  name := t.name
  beforeSlash := 0
  beforeDigits := 0
  digits := t.digits
  options := t.options.map fun o => ⟨1, o, Nat.one_pos⟩
  trailing := 0
  is_name := h.name
  digits_ne := h.digits_ne
  digits_chars := h.digits

theorem text_tagLayout (t : Tag) (h : t.Printable) : (t.layout h).text = t.text := by
  simp [TagLayout.text, TagLayout.optionsText, OptionLayout.text, Tag.layout, Tag.text, spaces,
    List.flatMap_map]

theorem tag_tagLayout (t : Tag) (h : t.Printable) : (t.layout h).tag = t := by
  simp [TagLayout.tag, Tag.layout, Function.comp_def]

theorem tag_printed (t : Tag) (h : t.Printable) : Tag.ofBody? t.text = some t :=
  (TagLayout.ofBody_eq_some_iff t.text t).mpr ⟨t.layout h, text_tagLayout t h, tag_tagLayout t h⟩

def Param.layout (n : Nat) (p : Param) (h : p.Printable) : ParamLayout where
  indent := n
  name := p.name
  gap := 0
  type := p.type
  is_name := h.name
  type_ne := ((isText_iff p.type).mp h.type_text).1
  type_chars := ⟨h.type_chars.1, h.type_chars.2.1⟩

def paramsLayout (ps : List Param) (h : ∀ p ∈ ps, p.Printable) : ListLayout :=
  match ps with
  | [] => .blank 0
  | p::ps => .listed (p.layout 0 (h p (by simp)))
      (ps.pmap (Param.layout 1) fun q hq => h q (by simp [hq]))

theorem text_paramsLayout (ps : List Param) (h : ∀ p ∈ ps, p.Printable) :
    (paramsLayout ps h).text = Text.joinWith [',', ' '] (ps.map Param.text) := by
  cases ps with
  | nil => rfl
  | cons p ps =>
    have hmore (hps : ∀ q ∈ ps, q.Printable) :
        (ps.pmap (Param.layout 1) hps).map ParamLayout.text = ps.map fun q => ' ' :: q.text := by
      rw [List.map_pmap]
      exact List.pmap_eq_map (f := fun q => ' ' :: q.text) hps
    rw [paramsLayout, ListLayout.text, List.map_cons, Text.joinWith_cons, List.flatMap_map,
      ← List.flatMap_map ParamLayout.text, hmore, List.flatMap_map]
    rfl

theorem params_paramsLayout (ps : List Param) (h : ∀ p ∈ ps, p.Printable) :
    (paramsLayout ps h).params = ps := by
  cases ps with
  | nil => rfl
  | cons p ps =>
    have hmore (hps : ∀ q ∈ ps, q.Printable) :
        (ps.pmap (Param.layout 1) hps).map ParamLayout.param = ps.map id := by
      rw [List.map_pmap]
      exact List.pmap_eq_map (f := id) hps
    rw [paramsLayout, ListLayout.params, ListLayout.all, List.map_cons, hmore, List.map_id]
    rfl

def Header.layout (h : Header) (hp : h.Printable) : HeaderLayout where
  indent := 0
  gap := 1
  name := h.name
  beforeOpen := 0
  inner := paramsLayout h.params hp.params
  ret := h.ret
  body := h.body
  gap_pos := Nat.one_pos
  is_name := hp.name
  ret_ne := ((isText_iff h.ret).mp hp.ret_text).1
  ret_chars := hp.ret_chars.1
  body_start := hp.body_start

theorem text_layout (h : Header) (hp : h.Printable) : (h.layout hp).text = h.text := by
  simp [HeaderLayout.text, Header.layout, text_paramsLayout, Header.text, spaces]

theorem header_printed (h : Header) (hp : h.Printable) : Header.ofBody? h.text = some h := by
  have hparams := params_paramsLayout h.params hp.params
  refine (HeaderLayout.ofBody_eq_some_iff h.text h).mpr ⟨h.layout hp, text_layout h hp, ⟨?_, ?_⟩, ?_⟩
  · intro q hq
    have hmem : q.param ∈ h.params := hparams ▸ List.mem_map_of_mem hq
    exact ((isText_iff q.type).mp (hp.params _ hmem).type_text).2
  · exact ((isText_iff h.ret).mp hp.ret_text).2
  · rw [HeaderLayout.header, Header.layout, hparams]

theorem feed_not_mem_params (ps : List Param) (h : ∀ p ∈ ps, p.Printable) :
    '\n' ∉ Text.joinWith [',', ' '] (ps.map Param.text) := by
  apply Text.not_mem_joinWith _ _ _ (by decide)
  intro t ht
  obtain ⟨p, hp, rfl⟩ := List.mem_map.mp ht
  simp [Param.text, not_mem_name p.name (h p hp).name '\n' rfl, (h p hp).type_chars.2.2]

theorem feed_not_mem_tag (t : Tag) (h : t.Printable) : '\n' ∉ t.text := by
  have hname := not_mem_name t.name h.name '\n' rfl
  have hdigits : '\n' ∉ t.digits := fun hm => absurd (h.digits _ hm) (by decide)
  have hopts : ∀ o : ExecOption, '\n' ∉ o.spelling := by
    intro o
    cases o <;> decide
  simp [Tag.text, hname, hdigits, hopts]

theorem feed_not_mem_header (h : Header) (hp : h.Printable) : '\n' ∉ h.text := by
  have hname := not_mem_name h.name hp.name '\n' rfl
  have hparams := feed_not_mem_params h.params hp.params
  simp only [Header.text, List.mem_append, List.mem_cons, hname, hparams, hp.ret_chars.2,
    hp.body_chars]
  decide

theorem doc_spoken (r : Text) (h : '\n' ∉ r) :
    doc? (Text.terminated (spoken r ++ ['\n'])) = if r = [] then none else some (' '::r) := by
  have hmark : afterDocMark? (spoken r) = some (' '::r) := rfl
  have hfeed : '\n' ∉ spoken r := by simp [spoken, h]
  rw [Text.terminated_ended, doc?, body_ended _ hfeed, Option.bind_some, docText?, hmark]
  by_cases hr : r = [] <;> simp [isText, hr]

theorem isTagText_spoken (r : Text) :
    isTagText (' '::r) = "nif:".toList.isPrefixOf (Text.trim r) := by
  rw [isTagText, Text.trim_space]

theorem tag_line (t : Tag) (h : t.Printable) :
    tag? (Text.terminated (t.text ++ ['\n'])) = some t := by
  rw [Text.terminated_ended, tag?, body_ended _ (feed_not_mem_tag t h), Option.bind_some,
    tag_printed t h]

theorem doc_tag (t : Tag) (h : t.Printable) :
    ∃ text, doc? (Text.terminated (t.text ++ ['\n'])) = some text ∧ isTagText text = true :=
  doc_of_tag _ t (tag_line t h)

theorem header_line (h : Header) (hp : h.Printable) :
    header? (Text.terminated (h.text ++ ['\n'])) = some h := by
  rw [Text.terminated_ended, header?, body_ended _ (feed_not_mem_header h hp), Option.bind_some,
    header_printed h hp]

theorem doc_header (h : Header) (hp : h.Printable) :
    doc? (Text.terminated (h.text ++ ['\n'])) = none :=
  doc_of_header _ h (header_line h hp)

end AnnotatedZig.Line
