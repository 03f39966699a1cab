import AnnotatedZig.Proofs.Block.Basic
import AnnotatedZig.Proofs.Declaration
import AnnotatedZig.Proofs.Line.Printed
import AnnotatedZig.Proofs.Text.Lines
import AnnotatedZig.Proofs.ZigType
import Mathlib.Data.List.DropRight

/-!
# Declarations written as source

A declaration is written as its documentation, its tag, a header and the brace that closes an empty
body, each on a line of its own. The parameters get the names `a0`, `a1` and so on. This module says
which declarations can be written so, and that each line is of the form that it was written in.
-/

set_option autoImplicit false

namespace AnnotatedZig

namespace Declaration

def docLines (d : Declaration) : List Text := (d.doc.map (Text.cut '\n')).getD []

def tag (d : Declaration) : Line.Tag := ⟨d.name, d.arityText, d.options⟩

def header (d : Declaration) : Line.Header :=
  { name := d.name
    params := d.types.mapIdx fun i t => ⟨'a' :: (toString i).toList, ' ' :: t.spelling⟩
    ret := [' '] ++ (d.ret.spelling ++ [' '])
    body := ['\x7b'] }

def codeLines (d : Declaration) : List Text := [d.header.text, ['\x7d']].map (· ++ ['\n'])

def sourceLines (d : Declaration) : List Text :=
  (d.docLines.map Line.spoken ++ [d.tag.text]).map (· ++ ['\n']) ++ d.codeLines

def source (ds : List Declaration) : Text := (ds.flatMap sourceLines).flatten

/-- The declarations that a source can make: a proper name, an arity that fits and can be read, an
environment handle in its place, and documentation of trimmed lines that speak of no native
function. -/
structure Writable (d : Declaration) : Prop where
  name : Line.IsName d.name
  arity_eq : d.arity = d.params.length
  arity_length : d.arityText.length ≤ Text.digitLimit
  env_handle : ∀ e, d.env = some e → e.isEnvHandle = true
  env_first : d.env = none → ∀ t, d.params.head? = some t → t.isEnvHandle = false
  doc_trimmed : ∀ r ∈ d.docLines, Text.trim r = r
  doc_untagged : ∀ r ∈ d.docLines, "nif:".toList.isPrefixOf r = false

theorem Writable.proper (d : Declaration) (h : d.Writable) : d.Proper :=
  ⟨h.name, h.arity_eq, h.env_handle, h.env_first⟩

theorem tag_printable (d : Declaration) (h : d.Writable) : d.tag.Printable := by
  have htext : d.tag.digits = Nat.toDigits 10 d.arity := toList_toString d.arity
  have hne : d.tag.digits ≠ [] := by
    rw [htext]
    exact Nat.toDigits_ne_nil
  exact ⟨h.name, hne, isDigit_toString d.arity⟩

theorem tag_arity (d : Declaration) : Nat.ofDigitChars 10 d.tag.digits 0 = d.arity := by
  have htext : d.tag.digits = Nat.toDigits 10 d.arity := toList_toString d.arity
  rw [htext, Nat.ofDigitChars_ten_toDigits]

theorem isName_param (i : Nat) : Line.IsName ('a' :: (toString i).toList) := by
  have hdigits : ∀ c ∈ (toString i).toList, Line.isNameChar c = true := by
    intro c hc
    simp [Line.isNameChar, Char.isAlphanum, isDigit_toString i c hc]
  exact ⟨by simp, List.forall_mem_cons.mpr ⟨rfl, hdigits⟩⟩

theorem header_printable (d : Declaration) (h : d.Writable) : d.header.Printable where
  name := h.name
  params := by
    intro p hp
    obtain ⟨i, hi, rfl⟩ := List.mem_mapIdx.mp hp
    have hne := ZigType.spelling_ne_nil d.types[i]
    refine ⟨isName_param i, by simp [Line.isText, hne], ?_, ?_, ?_⟩
    · simpa using ZigType.not_mem_spelling d.types[i] ',' (.inr (by simp))
    · simpa using ZigType.not_mem_spelling d.types[i] ')' (.inr (by simp))
    · simpa using ZigType.not_mem_spelling d.types[i] '\n' (.inl rfl)
  ret_text := by simp [header, Line.isText]
  ret_chars := by
    have hbrace := ZigType.not_mem_spelling d.ret '\x7b' (.inr (by simp))
    have hfeed := ZigType.not_mem_spelling d.ret '\n' (.inl rfl)
    simp [header, hbrace, hfeed]
  body_start := by
    intro c hc
    simpa [header, eq_comm] using hc
  body_chars := by simp [header]

theorem trim_spelling (t : ZigType) (s : Text) (hs : s = [] ∨ s = [' ']) :
    Text.trim ([' '] ++ (t.spelling ++ s)) = t.spelling := by
  apply ZigType.trim_padded t [' '] s
  · exact List.forall_mem_singleton.mpr rfl
  · rcases hs with rfl | rfl
    · simp
    · exact List.forall_mem_singleton.mpr rfl

theorem header_paramTypes (d : Declaration) :
    d.header.paramTypes = d.types.map ZigType.spelling := by
  have htrim : ∀ t : ZigType, Text.trim (' ' :: t.spelling) = t.spelling := by
    intro t
    simpa using trim_spelling t [] (.inl rfl)
  apply List.ext_getElem
  · simp [Line.Header.paramTypes, header]
  · intro i hi hi'
    simp [Line.Header.paramTypes, header, htrim]

theorem header_retType (d : Declaration) : d.header.retType = d.ret.spelling :=
  trim_spelling d.ret [' '] (.inr rfl)

theorem feed_not_mem_docLines (d : Declaration) : ∀ r ∈ d.docLines, '\n' ∉ r := by
  cases hd : d.doc with
  | none => simp [docLines, hd]
  | some s => simpa [docLines, hd] using Text.not_mem_of_mem_cut '\n' s

theorem documentation_docLines (d : Declaration) (h : [] ∉ d.docLines) :
    documentation d.docLines = d.doc := by
  cases hd : d.doc with
  | none => simp [docLines, hd, documentation]
  | some s =>
    have hlines : d.docLines = Text.cut '\n' s := by simp [docLines, hd]
    obtain ⟨r, rs, hcut⟩ := List.exists_cons_of_ne_nil (Text.cut_ne_nil '\n' s)
    have hr : r ≠ [] := by
      rintro rfl
      exact h (by simp [hlines, hcut])
    rw [hlines, hcut, documentation, List.dropWhile_cons_of_neg (by simpa using hr)]
    show some (Text.joinWith ['\n'] (r::rs)) = some s
    rw [← hcut, Text.joinWith_cut]

end Declaration

namespace Line

theorem isDoc_spoken (r : Text) (h : '\n' ∉ r) :
    isDoc (spoken r ++ ['\n']) = decide (r ≠ []) := by
  rw [isDoc, doc_spoken r h]
  by_cases hr : r = [] <;> simp [hr]

theorem isTag_spoken (r : Text) (h : '\n' ∉ r)
    (hn : "nif:".toList.isPrefixOf (Text.trim r) = false) :
    isTag (spoken r ++ ['\n']) = false := by
  rw [isTag, doc_spoken r h]
  by_cases hr : r = []
  · simp [hr]
  · simp only [hr, if_false, Option.any_some, isTagText_spoken, hn]

theorem remark_spoken (r : Text) (h : '\n' ∉ r) : remark (spoken r ++ ['\n']) = Text.trim r := by
  rw [remark, doc_spoken r h]
  by_cases hr : r = []
  · simp [hr]
  · simp [hr, Text.trim_space]

theorem isTag_tag (t : Tag) (h : t.Printable) : isTag (t.text ++ ['\n']) = true := by
  obtain ⟨text, hdoc, htag⟩ := doc_tag t h
  simp [isTag, hdoc, htag]

theorem isDoc_header (h : Header) (hp : h.Printable) : isDoc (h.text ++ ['\n']) = false := by
  rw [isDoc, doc_header h hp]
  rfl

end Line

end AnnotatedZig
