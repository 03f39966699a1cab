import AnnotatedZig.Line.Tree
import AnnotatedZig.Proofs.Line.Basic
import AnnotatedZig.Proofs.Text.Trim

/-!
# One line, one form

The form of a line shows in its first mark behind the spaces: a header opens with a word, and
documentation with slashes. So no line is both. A tag is documentation, and its text says that it is
a tag.
-/

set_option autoImplicit false

namespace AnnotatedZig.Line

theorem afterDocMark_eq_some_iff (body r : Text) :
    afterDocMark? body = some r ↔
      r.head? ≠ some '/' ∧ ∃ n, body = spaces n ++ '/' :: '/' :: '/' :: r := by
  have hmark (s : Text) : word? "///".toList (skipSpaces body) = some s ↔
      ∃ n, body = spaces n ++ '/' :: '/' :: '/' :: s :=
    word_spaces_iff ['/', '/'] '/' body s (by decide)
  rw [← hmark r, afterDocMark?]
  cases word? "///".toList (skipSpaces body) with
  | none => simp
  | some s => by_cases hs : s.head? = some '/' <;> grind

theorem docText_of_mark (body r : Text) (h : afterDocMark? body = some r) :
    docText? body = if r = [' '] then none else some r := by
  rw [docText?, h, Option.bind_some]
  by_cases hr : r = [] <;> simp [hr, isText]

theorem docText_eq_some_iff (body r : Text) :
    docText? body = some r ↔
      r.head? ≠ some '/' ∧ r ≠ [' '] ∧ ∃ n, body = spaces n ++ '/' :: '/' :: '/' :: r := by
  constructor
  · intro h
    obtain ⟨s, hs, -⟩ := Option.bind_eq_some_iff.mp h
    rw [docText_of_mark body s hs, Option.ite_none_left_eq_some, Option.some.injEq] at h
    obtain ⟨hlone, rfl⟩ := h
    obtain ⟨hslash, hspaces⟩ := (afterDocMark_eq_some_iff body s).mp hs
    exact ⟨hslash, hlone, hspaces⟩
  · rintro ⟨hslash, hlone, hspaces⟩
    rw [docText_of_mark body r ((afterDocMark_eq_some_iff body r).mpr ⟨hslash, hspaces⟩),
      if_neg hlone]

theorem docTree_eq_some_iff (t : Text) (h : '\n' ∉ t) (tree : Tree) :
    tree? (t ++ ['\n']) .doc = some tree ↔
      ∃ n r, t = spaces n ++ '/' :: '/' :: '/' :: r ∧ r.head? ≠ some '/' ∧ r ≠ [' '] ∧
        tree = .node (.line .doc) (.leaf .docMark "///".toList ::
          if r = [] then [] else [.leaf .docText r]) := by
  rw [tree?, Option.map_eq_some_iff, doc?, body_ended t h, Option.bind_some]
  constructor
  · rintro ⟨r, hr, rfl⟩
    obtain ⟨hslash, hlone, n, ht⟩ := (docText_eq_some_iff t r).mp hr
    exact ⟨n, r, ht, hslash, hlone, rfl⟩
  · rintro ⟨n, r, ht, hslash, hlone, rfl⟩
    exact ⟨r, (docText_eq_some_iff t r).mpr ⟨hslash, hlone, n, ht⟩, rfl⟩

theorem docText_of_header (body : Text) (h : Header) (form : Header.ofBody? body = some h) :
    docText? body = none := by
  obtain ⟨r, hr, -⟩ := Option.bind_eq_some_iff.mp form
  have hword : skipSpaces body = "fn ".toList ++ r := (word?_eq_some_iff _ _ _).mp hr
  have hmark : afterDocMark? body = none := by
    rw [afterDocMark?, hword]
    rfl
  rw [docText?, hmark, Option.bind_none]

theorem doc_of_header (text : Text) (h : Header) (form : header? text = some h) :
    doc? text = none := by
  obtain ⟨body, hbody, hform⟩ := Option.bind_eq_some_iff.mp form
  rw [doc?, hbody, Option.bind_some, docText_of_header body h hform]

theorem doc_or_header (text : Text) : doc? text = none ∨ header? text = none := by
  cases form : header? text with
  | none => exact .inr rfl
  | some h => exact .inl (doc_of_header text h form)

theorem isTagText_iff (text : Text) : isTagText text = true ↔ "nif:".toList <+: Text.trim text :=
  List.isPrefixOf_iff_prefix

theorem docText_of_tag (body : Text) (t : Tag) (form : Tag.ofBody? body = some t) :
    ∃ text, docText? body = some text ∧ isTagText text = true := by
  obtain ⟨text, hmark, hrest⟩ := Option.bind_eq_some_iff.mp form
  obtain ⟨r, hr, -⟩ := Option.bind_eq_some_iff.mp hrest
  obtain ⟨n, htext⟩ := (word_spaces_iff ['i', 'f', ':'] 'n' text r (by decide)).mp hr
  have hlone : text ≠ [' '] := by
    intro h
    have hn : 'n' ∈ text := by simp [htext]
    simp [h] at hn
  have hblank : ∀ c ∈ spaces n, Text.isBlank c = true := by
    intro c hc
    rw [mem_spaces n c hc]
    rfl
  have hnif : ∀ c ∈ ['n', 'i', 'f', ':'], Text.isBlank c = false := by
    intro c hc
    have hall : ['n', 'i', 'f', ':'].all (fun c => !Text.isBlank c) = true := by decide
    simpa using List.all_eq_true.mp hall c hc
  refine ⟨text, by rw [docText_of_mark body text hmark, if_neg hlone], ?_⟩
  rw [isTagText_iff, htext]
  exact Text.prefix_trim (spaces n) ['n', 'i', 'f', ':'] r hblank hnif

theorem doc_of_tag (text : Text) (t : Tag) (form : tag? text = some t) :
    ∃ remark, doc? text = some remark ∧ isTagText remark = true := by
  obtain ⟨body, hbody, hform⟩ := Option.bind_eq_some_iff.mp form
  obtain ⟨remark, hremark, htag⟩ := docText_of_tag body t hform
  exact ⟨remark, by rw [doc?, hbody, Option.bind_some, hremark], htag⟩

end AnnotatedZig.Line
