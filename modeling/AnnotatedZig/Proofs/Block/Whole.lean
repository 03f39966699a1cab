import AnnotatedZig.Proofs.Block.FixedPoint

/-!
# Lines that make whole blocks

Lines whose last one ends a block can be read without what stands above and below them. So what a
source declares and keeps is put together from pieces of it, if every piece ends where a block ends.
-/

set_option autoImplicit false

namespace AnnotatedZig

def Declaration.Agree (ds es : List Declaration) : Prop :=
  List.Forall₂ (fun d e : Declaration => d.agrees e = true) ds es

namespace Block

/-- Lines of these texts, wherever they stand, fall into blocks that all have an ending. The blocks
declare `ds`, up to the places, and keep the texts `us`. -/
def Whole (ts : List Text) (ds : List Declaration) (us : List Text) : Prop :=
  ∀ ls : List SourceLine, ls.map SourceLine.text = ts →
    ∃ (bs : List Block) (es : List Declaration), (∀ b ∈ bs, b.Ended) ∧ bs.flatMap lines = ls ∧
      bs.flatMap kept = us ∧ List.Forall₂ Declares (bs.filter tagged) es ∧
      Declaration.Agree ds es

theorem whole_nil : Whole [] [] [] := by
  intro ls hls
  obtain rfl : ls = [] := by simpa using hls
  exact ⟨[], [], by simp, rfl, rfl, .nil, .nil⟩

theorem whole_append (ts ts' us us' : List Text) (ds ds' : List Declaration)
    (h : Whole ts ds us) (h' : Whole ts' ds' us') : Whole (ts ++ ts') (ds ++ ds') (us ++ us') := by
  intro ls hls
  obtain ⟨pre, post, rfl, hpre, hpost⟩ := List.map_eq_append_iff.mp hls
  obtain ⟨bs, es, hbs, rfl, hkept, hdecl, hag⟩ := h pre hpre
  obtain ⟨cs, fs, hcs, rfl, hkept', hdecl', hag'⟩ := h' post hpost
  have hended : ∀ b ∈ bs ++ cs, b.Ended := List.forall_mem_append.mpr ⟨hbs, hcs⟩
  have hdeclares : List.Forall₂ Declares ((bs ++ cs).filter tagged) (es ++ fs) := by
    rw [List.filter_append]
    exact List.rel_append hdecl hdecl'
  exact ⟨bs ++ cs, es ++ fs, hended, by simp, by simp [hkept, hkept'], hdeclares,
    List.rel_append hag hag'⟩

theorem whole_untagged (ts : List Text) (htag : ∀ t ∈ ts, Line.isTag t = false)
    (hlast : ∀ t, ts.getLast? = some t → Line.isDoc t = false) : Whole ts [] ts := by
  rintro ls rfl
  have hbs : ∀ b ∈ cut ls, b.tagged = false := by
    apply untagged_of_lines
    intro l hl
    exact htag l.text (List.mem_map_of_mem hl)
  have hlines := flatMap_lines_cut ls
  obtain ⟨bs, ds, hcut, hended, hds⟩ := cut_shape ls
  have hnil : ds = [] := by
    by_contra hne
    obtain ⟨init, l, rfl⟩ := List.eq_nil_or_concat' ds |>.resolve_left hne
    have hl : l.isDoc = true := hds l (by simp)
    have hget : ls.getLast? = some l := by
      rw [← hlines, hcut]
      simp [lines]
    have hnot : l.isDoc = false := hlast l.text (by simp [hget])
    simp [hl] at hnot
  subst hnil
  have huntagged : ∀ b ∈ bs, b.tagged = false := by
    intro b hb
    exact hbs b (by simp [hcut, hb])
  have hbs_lines : bs.flatMap lines = ls := by simpa [hcut, lines] using hlines
  have hnone := (filter_tagged_eq_nil_iff bs).mpr huntagged
  have hkept : bs.flatMap kept = ls.map SourceLine.text := by
    rw [flatMap_kept_untagged bs huntagged, hbs_lines]
  exact ⟨bs, [], hended, hbs_lines, hkept, by rw [hnone]; exact .nil, .nil⟩

end Block

theorem extract_of_whole (code : Text) (file : String) (line : Int) (ds : List Declaration)
    (us : List Text) (h : Block.Whole (Text.splitLines code) ds us) :
    ∃ es, Declaration.Agree ds es ∧
      extract code file line = .ok ⟨marker file line ++ us.flatten, es⟩ := by
  obtain ⟨bs, es, hended, hlines, hkept, hdecl, hag⟩ :=
    h _ (SourceLine.map_text_ofCode code file line)
  have hcut : Block.ofCode code file line = bs ++ [⟨[], none⟩] := by
    have := Block.cut_flatMap_append bs hended []
    rwa [hlines, List.append_nil] at this
  have hfilter : (Block.ofCode code file line).filter Block.tagged = bs.filter Block.tagged := by
    simp [hcut, Block.tagged]
  have hempty : (Block.ofCode code file line).flatMap Block.kept = us := by
    simp [hcut, hkept, Block.kept, Block.tagged, Block.lines]
  refine ⟨es, hag, ?_⟩
  rw [extract_of_declares code file line es (by rwa [hfilter]), hempty]

end AnnotatedZig
