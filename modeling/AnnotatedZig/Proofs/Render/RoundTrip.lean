import AnnotatedZig.Proofs.Render.Block

/-!
# Written declarations, extracted

Declarations that are written one below the other come back in order. Documentation with an empty
line is the exception: what stands down to that line stays in the code and is lost to its
declaration.
-/

set_option autoImplicit false

namespace AnnotatedZig

namespace Declaration

theorem whole_source (ds : List Declaration) (h : ∀ d ∈ ds, d.Writable) :
    Block.Whole (ds.flatMap sourceLines) (ds.map cutDoc) (ds.flatMap leftLines) := by
  induction ds with
  | nil => exact Block.whole_nil
  | cons d ds ih =>
    rw [List.forall_mem_cons] at h
    exact Block.whole_append _ _ _ _ [d.cutDoc] _ (whole_written d h.1) (ih h.2)

theorem feed_not_mem_sourceLines (d : Declaration) (hd : d.Writable) :
    ∀ t ∈ d.sourceLines, ∃ l, '\n' ∉ l ∧ l ++ ['\n'] = t := by
  intro t ht
  simp only [sourceLines, codeLines, ← List.map_append, List.mem_map] at ht
  obtain ⟨l, hl, rfl⟩ := ht
  refine ⟨l, ?_, rfl⟩
  simp only [List.mem_append, List.mem_cons, List.not_mem_nil, or_false, List.mem_map] at hl
  rcases hl with (⟨r, hr, rfl⟩ | rfl) | rfl | rfl
  · simpa [Line.spoken] using feed_not_mem_docLines d r hr
  · exact Line.feed_not_mem_tag d.tag (tag_printable d hd)
  · exact Line.feed_not_mem_header d.header (header_printable d hd)
  · decide

theorem splitLines_source (ds : List Declaration) (h : ∀ d ∈ ds, d.Writable) :
    Text.splitLines (source ds) = ds.flatMap sourceLines := by
  apply Text.splitLines_flatten
  apply Text.areLines_ended
  intro t ht
  obtain ⟨d, hd, htd⟩ := List.mem_flatMap.mp ht
  exact feed_not_mem_sourceLines d (h d hd) t htd

theorem length_leftLines (ds : List Declaration) :
    (ds.flatMap leftLines).flatten.length =
      (ds.flatMap aboveLines).flatten.length + (ds.flatMap codeLines).flatten.length := by
  induction ds with
  | nil => rfl
  | cons d ds ih =>
    simp only [List.flatMap_cons, List.flatten_append, List.length_append, leftLines] at ih ⊢
    omega

theorem docLines_of_leftLines (ds : List Declaration)
    (h : (ds.flatMap leftLines).flatten = (ds.flatMap codeLines).flatten) :
    ∀ d ∈ ds, [] ∉ d.docLines := by
  intro d hd
  have hlength := length_leftLines ds
  rw [h] at hlength
  have hnone : (ds.flatMap aboveLines).flatten = [] := by
    rw [← List.length_eq_zero_iff]
    omega
  rw [← docAbove_eq_nil_iff, List.eq_nil_iff_forall_not_mem]
  intro r hr
  rw [List.flatten_eq_nil_iff] at hnone
  have hempty := hnone (Line.spoken r ++ ['\n']) (by
    rw [List.mem_flatMap]
    exact ⟨d, hd, by simpa [aboveLines] using ⟨r, hr, rfl⟩⟩)
  simp at hempty

theorem extract_source (ds : List Declaration) (file : String) (line : Int)
    (h : ∀ d ∈ ds, d.Writable) :
    ∃ es, Agree (ds.map cutDoc) es ∧
      extract (source ds) file line =
        .ok ⟨marker file line ++ (ds.flatMap leftLines).flatten, es⟩ := by
  apply extract_of_whole
  rw [splitLines_source ds h]
  exact whole_source ds h

end Declaration

/-- Declarations written one below the other are extracted in order, each with its name, arity,
types and options, and with the documentation below its last empty line. The code is the headers and
closing braces, and the documentation down to those empty lines. So the declarations come back as
they were, and nothing else stays in the code, exactly if no documentation has an empty line. -/
theorem extract_written (ds : List Declaration) (file : String) (line : Int)
    (h : ∀ d ∈ ds, d.Writable) :
    (∃ o, extract (Declaration.source ds) file line = .ok o ∧
      Declaration.Agree (ds.map Declaration.cutDoc) o.declarations ∧
      o.code = marker file line ++ (ds.flatMap Declaration.leftLines).flatten) ∧
    ((∃ o, extract (Declaration.source ds) file line = .ok o ∧
      Declaration.Agree ds o.declarations ∧
      o.code = marker file line ++ (ds.flatMap Declaration.codeLines).flatten) ↔
        ∀ d ∈ ds, [] ∉ d.docLines) := by
  obtain ⟨es, hes, he⟩ := Declaration.extract_source ds file line h
  constructor
  · exact ⟨_, he, hes, rfl⟩
  constructor
  · rintro ⟨o, ho, -, hcode⟩
    rw [he, Except.ok.injEq] at ho
    subst ho
    exact Declaration.docLines_of_leftLines ds (List.append_cancel_left hcode)
  · intro hdocs
    have hleft : ds.flatMap Declaration.leftLines = ds.flatMap Declaration.codeLines :=
      List.flatMap_congr fun d hd => d.leftLines_eq_codeLines (hdocs d hd)
    have hcut : ds.map Declaration.cutDoc = ds := by
      rw [List.map_congr_left fun d hd => d.cutDoc_eq_self (hdocs d hd), List.map_id']
    refine ⟨_, he, ?_, by rw [hleft]⟩
    rwa [hcut] at hes

namespace Declaration

def paragraphs : Declaration :=
  { name := ['f'], arity := 1, params := [.scalar .i64], ret := .slice .u8
    doc := some ['a', '\n', '\n', 'b'], options := [.long, .dirty], env := some (.scalar .beamEnv)
    loc := none }

theorem paragraphs_writable : paragraphs.Writable where
  name := ⟨by decide, List.forall_mem_singleton.mpr rfl⟩
  arity_eq := rfl
  arity_length := by decide
  env_handle := by decide
  env_first := by decide
  doc_trimmed := by decide
  doc_untagged := by decide

end Declaration

theorem extract_written_paragraphs :
    Declaration.paragraphs.Writable ∧
    (∃ o, extract (Declaration.source [.paragraphs]) "a.zig" 1 = .ok o ∧
      Declaration.Agree ([.paragraphs].map Declaration.cutDoc) o.declarations ∧
      o.code = marker "a.zig" 1 ++ ([.paragraphs].flatMap Declaration.leftLines).flatten) ∧
    ((∃ o, extract (Declaration.source [.paragraphs]) "a.zig" 1 = .ok o ∧
      Declaration.Agree [.paragraphs] o.declarations ∧
      o.code = marker "a.zig" 1 ++ ([.paragraphs].flatMap Declaration.codeLines).flatten) ↔
        ∀ d ∈ [Declaration.paragraphs], [] ∉ d.docLines) :=
  ⟨Declaration.paragraphs_writable,
    extract_written [.paragraphs] "a.zig" 1 (by simpa using Declaration.paragraphs_writable)⟩

/-- The first paragraph is lost, and stays in the code. -/
theorem paragraphs_not_extracted :
    Declaration.paragraphs.Writable ∧
    extract (Declaration.source [.paragraphs]) "a.zig" 1 =
      .ok ⟨marker "a.zig" 1 ++ ("/// a\n/// \n".toList ++ Declaration.paragraphs.codeLines.flatten),
        [{ Declaration.paragraphs with doc := some ['b'], loc := some ⟨"a.zig", 5⟩ }]⟩ ∧
    ¬ ∃ o, extract (Declaration.source [.paragraphs]) "a.zig" 1 = .ok o ∧
      Declaration.Agree [.paragraphs] o.declarations := by
  have hrun : extract (Declaration.source [.paragraphs]) "a.zig" 1 =
      .ok ⟨marker "a.zig" 1 ++
        ("/// a\n/// \n".toList ++ Declaration.paragraphs.codeLines.flatten),
        [{ Declaration.paragraphs with doc := some ['b'], loc := some ⟨"a.zig", 5⟩ }]⟩ := by
    rfl
  refine ⟨Declaration.paragraphs_writable, hrun, ?_⟩
  rintro ⟨o, ho, hagree⟩
  rw [hrun, Except.ok.injEq] at ho
  subst ho
  cases hagree with
  | cons h _ => exact absurd h (by decide)

end AnnotatedZig
