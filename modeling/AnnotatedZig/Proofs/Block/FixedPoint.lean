import AnnotatedZig.Proofs.Block.Extraction
import AnnotatedZig.Proofs.Text.Lines
import Mathlib.Data.List.Flatten

/-!
# Extracting twice

The code that extraction leaves has no tags. Its lines are lines of the source as they were, so a
second extraction cuts it at the same places, finds nothing to declare and leaves it as it is.
-/

set_option autoImplicit false

namespace AnnotatedZig

namespace Block

theorem filter_tagged_eq_nil_iff (bs : List Block) :
    bs.filter tagged = [] ↔ ∀ b ∈ bs, b.tagged = false := by
  simp [List.filter_eq_nil_iff]

theorem kept_untagged (b : Block) (h : b.tagged = false) :
    b.kept = b.lines.map SourceLine.text := by
  simp [kept, h]

theorem flatMap_kept_untagged (bs : List Block) (h : ∀ b ∈ bs, b.tagged = false) :
    bs.flatMap kept = (bs.flatMap lines).map SourceLine.text := by
  rw [List.map_flatMap]
  exact List.flatMap_congr fun b hb => kept_untagged b (h b hb)

theorem kept_sublist (b : Block) : b.kept.Sublist (b.lines.map SourceLine.text) := by
  cases h : b.tagged with
  | false => rw [kept_untagged b h]
  | true => simp [kept, h, lines]

theorem flatMap_kept_sublist (bs : List Block) :
    (bs.flatMap kept).Sublist ((bs.flatMap lines).map SourceLine.text) := by
  rw [List.map_flatMap]
  exact List.Sublist.flatMap_right bs fun b _ => kept_sublist b

theorem not_isTag_of_mem_kept (b : Block) (hw : b.WellCut) (t : Text) (ht : t ∈ b.kept) :
    Line.isTag t = false := by
  have hending : ∀ s, b.ending = some s → Line.isTag s.text = false := by
    intro s hs
    by_contra htag
    have hdoc := s.isDoc_of_isTag (by simpa [SourceLine.isTag] using htag)
    simp [hw.ending s hs] at hdoc
  cases hb : b.tagged with
  | true =>
    obtain ⟨s, hs, rfl⟩ : ∃ s, b.ending = some s ∧ s.text = t := by simpa [kept, hb] using ht
    exact hending s hs
  | false =>
    have hdocs : ∀ l ∈ b.docs, Line.isTag l.text = false := by
      simpa [tagged, SourceLine.isTag] using hb
    rw [kept_untagged b hb, lines] at ht
    obtain ⟨l, hl, rfl⟩ := List.mem_map.mp ht
    rcases List.mem_append.mp hl with hl | hl
    · exact hdocs l hl
    · exact hending l (Option.mem_toList.mp hl)

theorem untagged_of_lines (ls : List SourceLine) (h : ∀ l ∈ ls, Line.isTag l.text = false) :
    ∀ b ∈ cut ls, b.tagged = false := by
  intro b hb
  rw [tagged, List.any_eq_false]
  intro l hl
  have hmem : l ∈ (cut ls).flatMap lines :=
    List.mem_flatMap.mpr ⟨b, hb, by simp [lines, hl]⟩
  rw [flatMap_lines_cut] at hmem
  simp [SourceLine.isTag, h l hmem]

end Block

theorem flatten_kept_untagged (code : Text) (file : String) (line : Int)
    (h : ∀ b ∈ Block.ofCode code file line, b.tagged = false) :
    ((Block.ofCode code file line).flatMap Block.kept).flatten = code := by
  rw [Block.flatMap_kept_untagged _ h, Block.ofCode, Block.flatMap_lines_cut,
    SourceLine.flatten_text_ofCode]

theorem extract_untagged (code : Text) (file : String) (line : Int)
    (h : ∀ b ∈ Block.ofCode code file line, b.tagged = false) :
    extract code file line = .ok ⟨marker file line ++ code, []⟩ := by
  have hnone := (Block.filter_tagged_eq_nil_iff _).mpr h
  rw [extract_of_declares code file line [] (by rw [hnone]; exact .nil),
    flatten_kept_untagged code file line h]

theorem extract_without_tags (code : Text) (file : String) (line : Int)
    (h : ∀ t ∈ Text.splitLines code, Line.isTag t = false) :
    extract code file line = .ok ⟨marker file line ++ code, []⟩ := by
  apply extract_untagged
  apply Block.untagged_of_lines
  intro l hl
  apply h
  rw [← SourceLine.map_text_ofCode code file line]
  exact List.mem_map_of_mem hl

theorem splitLines_kept (code : Text) (file : String) (line : Int) :
    Text.splitLines ((Block.ofCode code file line).flatMap Block.kept).flatten =
      (Block.ofCode code file line).flatMap Block.kept := by
  apply Text.splitLines_flatten
  apply Text.areLines_sublist _ (Text.splitLines code)
  · have hsub := Block.flatMap_kept_sublist (Block.ofCode code file line)
    rwa [Block.ofCode, Block.flatMap_lines_cut, SourceLine.map_text_ofCode] at hsub
  · exact Text.areLines_splitLines code

/-- The code that extraction leaves below the marker is a fixed point: wherever it is taken to
stand, a second extraction gives it back below its own marker and declares nothing. Its lines are
the lines that the blocks keep, none of them a tag, and they are the whole source if nothing was
declared. -/
theorem extract_fixed_point (code : Text) (file : String) (line : Int) (o : Outcome)
    (h : extract code file line = .ok o) :
    ∃ body, o.code = marker file line ++ body ∧
      (∀ file' line', extract body file' line' = .ok ⟨marker file' line' ++ body, []⟩) ∧
      Text.splitLines body = (Block.ofCode code file line).flatMap Block.kept ∧
      (∀ t ∈ Text.splitLines body, Line.isTag t = false) ∧
      (o.declarations = [] → body = code) := by
  obtain ⟨ds, hds, he⟩ := extract_of_sound code file line (sound_of_extract code file line o h)
  rw [h, Except.ok.injEq] at he
  subst he
  have hlines := splitLines_kept code file line
  have htags : ∀ t ∈ (Block.ofCode code file line).flatMap Block.kept, Line.isTag t = false := by
    intro t ht
    obtain ⟨b, hb, htb⟩ := List.mem_flatMap.mp ht
    exact Block.not_isTag_of_mem_kept b (wellCut_of_mem_ofCode code file line b hb) t htb
  refine ⟨_, rfl, ?_, hlines, ?_, ?_⟩
  · intro file' line'
    exact extract_without_tags _ file' line' (by rwa [hlines])
  · rwa [hlines]
  · intro hnone
    obtain rfl : ds = [] := hnone
    have hf := List.forall₂_nil_right_iff.mp hds
    apply flatten_kept_untagged
    exact (Block.filter_tagged_eq_nil_iff _).mp hf

def unendedSource : Text := "/// a\n/// nif: f/0 long\nfn f() void \x7b\n/// b".toList

theorem extract_fixed_point_unended :
    ∃ o, extract unendedSource "a.zig" 7 = .ok o ∧ o.declarations.length = 1 ∧
      ∃ body, o.code = marker "a.zig" 7 ++ body ∧
        (∀ file' line', extract body file' line' = .ok ⟨marker file' line' ++ body, []⟩) ∧
        Text.splitLines body = (Block.ofCode unendedSource "a.zig" 7).flatMap Block.kept ∧
        (∀ t ∈ Text.splitLines body, Line.isTag t = false) ∧
        (o.declarations = [] → body = unendedSource) := by
  have hrun : extract unendedSource "a.zig" 7 =
      .ok ⟨marker "a.zig" 7 ++ "fn f() void \x7b\n/// b".toList,
        [{ name := ['f'], arity := 0, params := [], ret := .scalar .void, doc := some ['a']
           options := [.long], env := none, loc := some ⟨"a.zig", 9⟩ }]⟩ := by
    rfl
  exact ⟨_, hrun, rfl, extract_fixed_point unendedSource "a.zig" 7 _ hrun⟩

end AnnotatedZig
