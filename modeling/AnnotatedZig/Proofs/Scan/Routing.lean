import AnnotatedZig.Proofs.Scan.Effect

/-!
# Which form a line is taken for

The forms of a line are told apart by readers that skip spaces differently, and tags are told from
other documentation by what the trimmed text begins with. These tests agree: no line is both
documentation and a header, every well-formed tag is documentation that says so, and what says so
without being one is at fault. Documentation is what stands behind three slashes, with the one
exception of a lone space, which makes the line no documentation.
-/

set_option autoImplicit false

namespace AnnotatedZig

namespace Context

theorem step_header_first (l : SourceLine) (c : Context) :
    c.step l =
      match l.header? with
      | some x => c.takeHeader x l
      | none => (c.takeDoc? l).getD (c.takeOther l) := by
  cases form : l.header? with
  | some x => exact step_header c l x (l.isDoc_of_header x form) form
  | none =>
    cases hd : c.takeDoc? l with
    | some p => exact step_of_takeDoc l c p hd
    | none =>
      have form' : Line.header? (Text.terminated l.text) = none := form
      simp only [step, hd, form', Option.getD_none]

end Context

/-- The language of documentation lines, and how it fits with the other two. A line is not read both
as documentation and as a header, so the order in which they are tried decides nothing. A well-formed
tag is documentation that begins with `nif:`, and taking it makes a tag wait or fails for a tag that
waits already or for its digits. Documentation that begins so and is no tag is always malformed. -/
theorem line_routing (t : Text) (h : '\n' ∉ t) :
    (∀ tree, Line.tree? (t ++ ['\n']) .doc = some tree ↔
      ∃ n r, t = Line.spaces n ++ '/' :: '/' :: '/' :: r ∧ r.head? ≠ some '/' ∧ r ≠ [' '] ∧
        tree = .node (.line .doc) (.leaf .docMark "///".toList ::
          if r = [] then [] else [.leaf .docText r])) ∧
    (Line.doc? (t ++ ['\n']) = none ∨ Line.header? (t ++ ['\n']) = none) ∧
    (∀ x, Line.tag? (t ++ ['\n']) = some x →
      ∃ r, Line.doc? (t ++ ['\n']) = some r ∧ "nif:".toList <+: Text.trim r) ∧
    ∀ (l : SourceLine) (c : Context), Text.terminated l.text = t ++ ['\n'] →
      (c.step l =
        match Line.header? (t ++ ['\n']) with
        | some x => c.takeHeader x l
        | none => (c.takeDoc? l).getD (c.takeOther l)) ∧
      (∀ x, Line.tag? (t ++ ['\n']) = some x →
        ∃ p, c.takeDoc? l = some p ∧ Context.Tagging l c x p) ∧
      ∀ r, Line.doc? (t ++ ['\n']) = some r → "nif:".toList <+: Text.trim r →
        Line.tag? (t ++ ['\n']) = none →
        c.takeDoc? l = some (.fail c (.defect (.malformedTag (Text.trim l.text)) l.loc)) := by
  have hdoc (x : Line.Tag) (form : Line.tag? (t ++ ['\n']) = some x) :
      ∃ r, Line.doc? (t ++ ['\n']) = some r ∧ "nif:".toList <+: Text.trim r := by
    obtain ⟨r, hr, htag⟩ := Line.doc_of_tag _ x form
    exact ⟨r, hr, (Line.isTagText_iff r).mp htag⟩
  have his_tag (l : SourceLine) (hl : Text.terminated l.text = t ++ ['\n']) (r : Text)
      (hr : Line.doc? (t ++ ['\n']) = some r) (hnif : "nif:".toList <+: Text.trim r) :
      l.isTag = true := by
    rw [SourceLine.isTag, Line.isTag, hl, hr, Option.any_some]
    exact (Line.isTagText_iff r).mpr hnif
  refine ⟨Line.docTree_eq_some_iff t h, Line.doc_or_header _, hdoc, fun l c hl => ⟨?_, ?_, ?_⟩⟩
  · rw [← hl]
    exact c.step_header_first l
  · intro x form
    obtain ⟨r, hr, hnif⟩ := hdoc x form
    have form' : l.tag? = some x := by rw [SourceLine.tag?, hl, form]
    exact ⟨_, c.takeDoc_of_isTag l (his_tag l hl r hr hnif), c.tagging_takeTag l x form'⟩
  · intro r hr hnif form
    have form' : l.tag? = none := by rw [SourceLine.tag?, hl, form]
    rw [c.takeDoc_of_isTag l (his_tag l hl r hr hnif), c.takeTag_malformed l form']

theorem line_routing_wide_space :
    '\n' ∉ "  ///\u00A0nif: f/1".toList ∧
      Context.takeDoc? ⟨"  ///\u00A0nif: f/1".toList, "a.zig", 3⟩ { file := "a.zig" } =
        some (.fail { file := "a.zig" }
          (.defect (.malformedTag "///\u00A0nif: f/1".toList) ⟨"a.zig", 3⟩)) :=
  ⟨by decide, ((line_routing "  ///\u00A0nif: f/1".toList (by decide)).2.2.2 _ _ rfl).2.2
    "\u00A0nif: f/1".toList (by decide) (by decide) (by decide)⟩

/-- Behind the slashes a lone space is no text, nor is it skipped: the line is no documentation. -/
theorem doc_lone_space :
    (∃ n r, "/// ".toList = Line.spaces n ++ '/' :: '/' :: '/' :: r ∧ r.head? ≠ some '/') ∧
      Line.doc? ("/// ".toList ++ ['\n']) = none :=
  ⟨⟨0, [' '], rfl, by decide⟩, by decide⟩

end AnnotatedZig
