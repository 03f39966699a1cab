import AnnotatedZig.Proofs.Block.Whole
import AnnotatedZig.Proofs.Render.Basic

/-!
# The blocks of a written declaration

An empty line of documentation is written as a line that is no documentation line. It ends its
block, so the documentation down to the last such line is a block without a tag. The lines below it,
the tag and the header make a block that reads as the declaration with only those lines.
-/

set_option autoImplicit false

namespace AnnotatedZig

namespace Declaration

/-- The documentation down to its last empty line. -/
def docAbove (d : Declaration) : List Text := d.docLines.rdropWhile (· ≠ [])

def docBelow (d : Declaration) : List Text := d.docLines.rtakeWhile (· ≠ [])

/-- The declaration that is left when the documentation is cut at its empty lines. -/
def cutDoc (d : Declaration) : Declaration := { d with doc := documentation d.docBelow }

def aboveLines (d : Declaration) : List Text := (d.docAbove.map Line.spoken).map (· ++ ['\n'])

/-- The lines that extraction leaves of a written declaration. -/
def leftLines (d : Declaration) : List Text := d.aboveLines ++ d.codeLines

def blockLines (d : Declaration) : List Text :=
  (d.docBelow.map Line.spoken).map (· ++ ['\n']) ++ [d.tag.text ++ ['\n'], d.header.text ++ ['\n']]

theorem docAbove_append_docBelow (d : Declaration) : d.docAbove ++ d.docBelow = d.docLines :=
  List.rdropWhile_append_rtakeWhile

theorem docBelow_subset (d : Declaration) : d.docBelow ⊆ d.docLines :=
  (List.rtakeWhile_suffix _ _).subset

theorem docAbove_subset (d : Declaration) : d.docAbove ⊆ d.docLines :=
  (List.rdropWhile_prefix _ _).subset

theorem ne_nil_of_mem_docBelow (d : Declaration) (r : Text) (h : r ∈ d.docBelow) : r ≠ [] := by
  simpa using List.mem_rtakeWhile_imp h

theorem docAbove_eq_nil_iff (d : Declaration) : d.docAbove = [] ↔ [] ∉ d.docLines := by
  rw [docAbove, List.rdropWhile_eq_nil_iff]
  constructor
  · intro h hm
    simpa using h [] hm
  · intro h r hr
    simpa using ne_of_mem_of_not_mem hr h

theorem cutDoc_eq_self (d : Declaration) (h : [] ∉ d.docLines) : d.cutDoc = d := by
  have habove := (docAbove_eq_nil_iff d).mpr h
  have hbelow : d.docBelow = d.docLines := by
    rw [← docAbove_append_docBelow, habove, List.nil_append]
  rw [cutDoc, hbelow, documentation_docLines d h]

theorem leftLines_eq_codeLines (d : Declaration) (h : [] ∉ d.docLines) :
    d.leftLines = d.codeLines := by
  have habove := (docAbove_eq_nil_iff d).mpr h
  simp [leftLines, aboveLines, habove]

theorem sourceLines_eq (d : Declaration) :
    d.sourceLines = d.aboveLines ++ (d.blockLines ++ [['\x7d', '\n']]) := by
  rw [sourceLines, ← docAbove_append_docBelow]
  simp [aboveLines, blockLines, codeLines]

theorem isTag_of_mem_docLines (d : Declaration) (hd : d.Writable) (r : Text)
    (h : r ∈ d.docLines) : Line.isTag (Line.spoken r ++ ['\n']) = false := by
  apply Line.isTag_spoken r (feed_not_mem_docLines d r h)
  rw [hd.doc_trimmed r h]
  exact hd.doc_untagged r h

theorem whole_above (d : Declaration) (hd : d.Writable) :
    Block.Whole d.aboveLines [] d.aboveLines := by
  apply Block.whole_untagged
  · intro t ht
    obtain ⟨r, hr, rfl⟩ : ∃ r ∈ d.docAbove, Line.spoken r ++ ['\n'] = t := by
      simpa [aboveLines] using ht
    exact isTag_of_mem_docLines d hd r (docAbove_subset d hr)
  · intro t ht
    obtain ⟨r, hr, rfl⟩ : ∃ r, d.docAbove.getLast? = some r ∧ Line.spoken r ++ ['\n'] = t := by
      simpa [aboveLines, List.getLast?_map] using ht
    have hne : d.docAbove ≠ [] := by
      rintro hnil
      simp [hnil] at hr
    have hlast : d.docAbove.getLast hne = [] := by
      simpa [docAbove] using List.rdropWhile_last_not _ _ hne
    rw [List.getLast?_eq_some_getLast hne, hlast, Option.some.injEq] at hr
    subst hr
    rfl

theorem remarks_spoken (docs : List SourceLine) (rs : List Text)
    (htext : docs.map SourceLine.text = (rs.map Line.spoken).map (· ++ ['\n']))
    (hplain : ∀ l ∈ docs, l.isTag = false) (hrs : ∀ r ∈ rs, '\n' ∉ r ∧ Text.trim r = r) :
    Block.remarks docs = rs := by
  have hfilter : docs.filter (fun l => !l.isTag) = docs := by
    rw [List.filter_eq_self]
    intro l hl
    simp [hplain l hl]
  have hremark : ∀ r ∈ rs, Line.remark (Line.spoken r ++ ['\n']) = r := by
    intro r hr
    rw [Line.remark_spoken r (hrs r hr).1, (hrs r hr).2]
  calc
    Block.remarks docs = (docs.map SourceLine.text).map Line.remark := by
      rw [Block.remarks, hfilter, List.map_map]
      rfl
    _ = rs.map fun r => Line.remark (Line.spoken r ++ ['\n']) := by
      rw [htext, List.map_map, List.map_map]
      rfl
    _ = rs := by
      rw [List.map_congr_left hremark, List.map_id']

theorem mem_docBelow_of_spoken (d : Declaration) (docs : List SourceLine)
    (htext : docs.map SourceLine.text = (d.docBelow.map Line.spoken).map (· ++ ['\n'])) :
    ∀ l ∈ docs, ∃ r ∈ d.docBelow, Line.spoken r ++ ['\n'] = l.text := by
  intro l hl
  have hmem : l.text ∈ (d.docBelow.map Line.spoken).map (· ++ ['\n']) :=
    htext ▸ List.mem_map_of_mem hl
  simpa using hmem

theorem isDoc_of_spoken (d : Declaration) (docs : List SourceLine)
    (htext : docs.map SourceLine.text = (d.docBelow.map Line.spoken).map (· ++ ['\n'])) :
    ∀ l ∈ docs, l.isDoc = true := by
  intro l hl
  obtain ⟨r, hr, ht⟩ := mem_docBelow_of_spoken d docs htext l hl
  have hfeed := feed_not_mem_docLines d r (docBelow_subset d hr)
  rw [SourceLine.isDoc, ← ht, Line.isDoc_spoken r hfeed]
  simpa using ne_nil_of_mem_docBelow d r hr

theorem isTag_of_spoken (d : Declaration) (hd : d.Writable) (docs : List SourceLine)
    (htext : docs.map SourceLine.text = (d.docBelow.map Line.spoken).map (· ++ ['\n'])) :
    ∀ l ∈ docs, l.isTag = false := by
  intro l hl
  obtain ⟨r, hr, ht⟩ := mem_docBelow_of_spoken d docs htext l hl
  rw [SourceLine.isTag, ← ht]
  exact isTag_of_mem_docLines d hd r (docBelow_subset d hr)

theorem opens_written (d : Declaration) (hd : d.Writable) (docs : List SourceLine)
    (l : SourceLine) (hplain : ∀ m ∈ docs, m.isTag = false) (hl : l.text = d.tag.text ++ ['\n']) :
    Block.Opens (docs ++ [l]) (some ⟨⟨d.name, d.arity, d.options⟩, l.loc⟩) := by
  have hprintable := tag_printable d hd
  have htag : l.isTag = true := by
    rw [SourceLine.isTag, hl]
    exact Line.isTag_tag d.tag hprintable
  have hform : l.tag? = some d.tag := by
    rw [SourceLine.tag?, hl]
    exact Line.tag_line d.tag hprintable
  rw [Block.opens_concat_tag docs l _ htag, Block.opens_none_iff, List.filter_eq_nil_iff]
  refine ⟨by simpa using hplain, d.tag, hform, hd.arity_length, ?_⟩
  rw [tag_arity]
  rfl

def written (d : Declaration) (hd : d.Writable) (docs : List SourceLine) (l s : SourceLine)
    (hopens : Block.Opens (docs ++ [l]) (some ⟨⟨d.name, d.arity, d.options⟩, l.loc⟩))
    (hs : s.text = d.header.text ++ ['\n']) : Block.Reading ⟨docs ++ [l], some s⟩ where
  pending := ⟨⟨d.name, d.arity, d.options⟩, l.loc⟩
  line := s
  header := d.header
  types := d.types
  ret := d.ret
  opens := hopens
  ending_eq := rfl
  header_eq := by
    rw [SourceLine.header?, hs]
    exact Line.header_line d.header (header_printable d hd)
  name_eq := rfl
  types_eq := by
    rw [header_paramTypes, List.map_map]
    exact List.map_congr_left fun t _ => ZigType.read_spelling t
  ret_eq := by
    rw [header_retType, ZigType.read_spelling]
  arity_eq := by
    rw [splitEnv_types d hd.proper]
    exact hd.arity_eq.symm

theorem whole_block (d : Declaration) (hd : d.Writable) :
    Block.Whole d.blockLines [d.cutDoc] [d.header.text ++ ['\n']] := by
  intro ls hls
  obtain ⟨docs, below, rfl, hdocs, hbelow⟩ := List.map_eq_append_iff.mp hls
  obtain ⟨l, more, rfl, hl, hmore⟩ := List.map_eq_cons_iff.mp hbelow
  obtain ⟨s, rest, rfl, hs, hrest⟩ := List.map_eq_cons_iff.mp hmore
  obtain rfl : rest = [] := by simpa using hrest
  have hplain := isTag_of_spoken d hd docs hdocs
  have htag : l.isTag = true := by
    rw [SourceLine.isTag, hl]
    exact Line.isTag_tag d.tag (tag_printable d hd)
  have hremarks : Block.remarks (docs ++ [l]) = d.docBelow := by
    rw [Block.remarks_concat_tag docs l htag]
    apply remarks_spoken docs d.docBelow hdocs hplain
    intro r hr
    have hmem := docBelow_subset d hr
    exact ⟨feed_not_mem_docLines d r hmem, hd.doc_trimmed r hmem⟩
  have hdoc : ∀ m ∈ docs ++ [l], m.isDoc = true := by
    rw [List.forall_mem_append, List.forall_mem_singleton]
    exact ⟨isDoc_of_spoken d docs hdocs, l.isDoc_of_isTag htag⟩
  have hending : s.isDoc = false := by
    rw [SourceLine.isDoc, hs]
    exact Line.isDoc_header d.header (header_printable d hd)
  have hended : Block.Ended ⟨docs ++ [l], some s⟩ := ⟨hdoc, s, rfl, hending⟩
  have htagged : Block.tagged ⟨docs ++ [l], some s⟩ = true := by simp [Block.tagged, htag]
  let reading := written d hd docs l s (opens_written d hd docs l hplain hl) hs
  have hagrees : d.cutDoc.agrees reading.declaration = true := by
    simp [agrees, cutDoc, Block.Reading.declaration, reading, written, hremarks,
      splitEnv_types d hd.proper]
  refine ⟨[⟨docs ++ [l], some s⟩], [reading.declaration], by simpa using hended,
    by simp [Block.lines], by simp [Block.kept, htagged, hs], ?_, .cons hagrees .nil⟩
  rw [List.filter_cons_of_pos htagged]
  exact .cons ⟨reading, rfl⟩ .nil

theorem whole_close : Block.Whole [['\x7d', '\n']] [] [['\x7d', '\n']] := by
  apply Block.whole_untagged
  · simp only [List.mem_singleton, forall_eq]
    rfl
  · intro t ht
    obtain rfl : ['\x7d', '\n'] = t := by simpa using ht
    rfl

theorem whole_written (d : Declaration) (hd : d.Writable) :
    Block.Whole d.sourceLines [d.cutDoc] d.leftLines := by
  rw [sourceLines_eq]
  exact Block.whole_append _ _ _ _ [] _ (whole_above d hd)
    (Block.whole_append _ _ _ _ _ [] (whole_block d hd) whole_close)

end Declaration

end AnnotatedZig
