import AnnotatedZig.Proofs.Block.Run
import AnnotatedZig.Proofs.Location
import Mathlib.Data.Option.Basic

/-!
# Extraction, block by block

Extraction succeeds exactly on the sources whose blocks are all sound. It then gives one
declaration for each tagged block, and the code without the documentation of those. Otherwise it
fails as the first block that is not sound says, whatever stands below the line at fault.
-/

set_option autoImplicit false

namespace AnnotatedZig

namespace Block

theorem reading_unique (b : Block) (r s : b.Reading) : r.declaration = s.declaration := by
  have hp : r.pending = s.pending :=
    Option.some.inj (opens_unique b.docs _ _ r.opens s.opens)
  have hl : r.line = s.line := Option.some.inj (r.ending_eq.symm.trans s.ending_eq)
  have hh : r.header = s.header :=
    Option.some.inj (r.header_eq.symm.trans (hl ▸ s.header_eq))
  have ht : r.types = s.types := by
    have h := r.types_eq.symm.trans (hh ▸ s.types_eq)
    exact List.map_injective_iff.mpr (Option.some_injective _) h
  have hr : r.ret = s.ret := Option.some.inj (r.ret_eq.symm.trans (hh ▸ s.ret_eq))
  simp [Reading.declaration, hp, hl, ht, hr]

theorem declares_unique (bs : List Block) (ds es : List Declaration)
    (hd : List.Forall₂ Declares bs ds) (he : List.Forall₂ Declares bs es) : ds = es := by
  have hunique : Relator.RightUnique Declares := by
    rintro b d e ⟨r, rfl⟩ ⟨s, rfl⟩
    exact reading_unique b r s
  exact List.right_unique_forall₂' hunique hd he

theorem reads_of_declares (bs : List Block) (ds : List Declaration)
    (h : List.Forall₂ Declares bs ds) : ∀ b ∈ bs, Nonempty b.Reading := by
  have hboth : List.Forall₂ (fun b d => Nonempty b.Reading ∧ Declares b d) bs ds := by
    apply h.imp
    rintro b d ⟨r, hr⟩
    exact ⟨⟨r⟩, r, hr⟩
  exact ((List.forall₂_and_left bs ds).mp hboth).1

structure Yields (bs : List Block) (c : Context) (p : Progress) : Prop where
  context_eq : p.context = c
  failure_eq : p.failure = none
  texts_eq : p.texts = bs.flatMap kept
  declares : List.Forall₂ Declares (bs.filter tagged) p.declarations

theorem scan_yields (file : String) (b : Block) (hw : b.WellCut) (hs : b.Sound) :
    Yields [b] { file := file } (b.scan { file := file }) := by
  cases ht : b.tagged with
  | false =>
    rw [scan_plain file b ((tagged_eq_false_iff b).mp ht) hw]
    refine ⟨rfl, rfl, ?_, ?_⟩
    · simp [Progress.texts, List.filterMap_map, Function.comp_def, Item.text?]
    · simp [Progress.declarations, List.filterMap_map, Function.comp_def, Item.declaration?, ht]
  | true =>
    obtain ⟨r⟩ := hs ht
    rw [scan_reading file b r hw]
    refine ⟨rfl, rfl, ?_, ?_⟩
    · simp [Progress.texts, Item.text?, kept, ht, r.ending_eq]
    · have hf : [b].filter tagged = [b] := by simp [ht]
      rw [hf]
      exact .cons ⟨r, rfl⟩ .nil

theorem yields_cons (b : Block) (bs : List Block) (c : Context) (p : Progress)
    (next : Context → Progress) (hp : Yields [b] c p) (hn : Yields bs c (next c)) :
    Yields (b::bs) c (p.andThen next) := by
  rw [Progress.andThen_of_none p next hp.failure_eq, hp.context_eq]
  have htexts := hp.texts_eq
  have hdecls := hp.declares
  refine ⟨hn.context_eq, hn.failure_eq, ?_, ?_⟩
  · simp only [Progress.texts, List.filterMap_append] at htexts ⊢
    rw [htexts, List.flatMap_cons]
    exact congrArg₂ _ (by simp) hn.texts_eq
  · rw [← List.singleton_append, List.filter_append, Progress.declarations,
      List.filterMap_append]
    exact List.rel_append hdecls hn.declares

theorem scanAll_yields (file : String) (bs : List Block) (hw : ∀ b ∈ bs, b.WellCut)
    (hs : ∀ b ∈ bs, b.Sound) :
    Yields bs { file := file } (scanAll bs { file := file }) := by
  induction bs with
  | nil => exact ⟨rfl, rfl, rfl, .nil⟩
  | cons b bs ih =>
    rw [List.forall_mem_cons] at hw hs
    exact yields_cons b bs _ _ _ (scan_yields file b hw.1 hs.1) (ih hw.2 hs.2)

theorem scanAll_append (bs cs : List Block) (c : Context) :
    scanAll (bs ++ cs) c = (scanAll bs c).andThen (scanAll cs) := by
  induction bs generalizing c with
  | nil => simp [scanAll, Progress.andThen]
  | cons b bs ih =>
    rw [List.cons_append, scanAll, scanAll, Progress.andThen_assoc, ← funext ih]

theorem sound_or_first_fails (bs : List Block) :
    (∀ b ∈ bs, b.Sound) ∨ ∃ good b rest n c,
      bs = good ++ b::rest ∧ (∀ g ∈ good, g.Sound) ∧ b.Fails n c := by
  induction bs with
  | nil => exact .inl (by simp)
  | cons b bs ih =>
    rcases sound_or_fails b with hb | ⟨n, c, hf⟩
    · rcases ih with hbs | ⟨good, b', rest, n, c, rfl, hgood, hf⟩
      · left
        exact List.forall_mem_cons.mpr ⟨hb, hbs⟩
      · right
        exact ⟨b::good, b', rest, n, c, rfl, List.forall_mem_cons.mpr ⟨hb, hgood⟩, hf⟩
    · right
      exact ⟨[], b, bs, n, c, rfl, by simp, hf⟩

theorem agree_append (ls ls' pre post : List SourceLine) (h : ls = pre ++ post)
    (ha : ls'.take pre.length = ls.take pre.length) : ∃ more, ls' = pre ++ more := by
  have hpre : ls'.take pre.length = pre := by rw [ha, h, List.take_left]
  have hsplit : ls' = pre ++ ls'.drop pre.length := calc
    ls' = ls'.take pre.length ++ ls'.drop pre.length := (List.take_append_drop _ _).symm
    _ = pre ++ ls'.drop pre.length := by rw [hpre]
  exact ⟨_, hsplit⟩

theorem agree_all (ls ls' : List SourceLine) (n : Nat) (hn : ls.length = n)
    (ha : ls'.take (n + 1) = ls.take (n + 1)) : ls' = ls := by
  rw [List.take_of_length_le (l := ls) (by omega)] at ha
  have hlength : ls'.length ≤ n + 1 := by
    have := congrArg List.length ha
    rw [List.length_take] at this
    omega
  rwa [List.take_of_length_le hlength] at ha

theorem tag_fails_below (good : List Block) (above more : List SourceLine) (l : SourceLine)
    (p : Option Pending) (c : Complaint) (hgood : ∀ g ∈ good, g.Ended)
    (habove : ∀ m ∈ above, m.isDoc = true) (is_tag : l.isTag = true) (opens : Opens above p)
    (fails : TagFails above l c) :
    ∃ b rest, cut (good.flatMap lines ++ (above ++ [l] ++ more)) = good ++ b::rest ∧
      b.Fails above.length c := by
  have hdocs : ∀ m ∈ above ++ [l], m.isDoc = true := by
    rw [List.forall_mem_append, List.forall_mem_singleton]
    exact ⟨habove, l.isDoc_of_isTag is_tag⟩
  obtain ⟨below, e, rest, hfirst⟩ := cut_docs_first (above ++ [l]) more hdocs
  have hcut : cut (good.flatMap lines ++ (above ++ [l] ++ more)) =
      good ++ ⟨above ++ [l] ++ below, e⟩::rest := by
    rw [cut_flatMap_append good hgood, hfirst]
  exact ⟨_, rest, hcut, .tag (List.append_assoc above [l] below) is_tag opens fails⟩

/-- A failing block stays so, and stays the same number of blocks down, when only lines below the
one at fault are changed. -/
theorem fails_of_agree (ls ls' : List SourceLine) (good rest : List Block) (b : Block) (n : Nat)
    (c : Complaint) (hcut : cut ls = good ++ b::rest) (hf : b.Fails n c)
    (ha : ls'.take ((good.flatMap lines).length + n + 1) =
      ls.take ((good.flatMap lines).length + n + 1)) :
    ∃ b' rest', cut ls' = good ++ b'::rest' ∧ b'.Fails n c := by
  obtain ⟨hgood, hlast⟩ := cut_split ls good rest b hcut
  have hw : b.WellCut := wellCut_of_mem ls b (by simp [hcut])
  have hls : ls = good.flatMap lines ++ (b.lines ++ rest.flatMap lines) := by
    rw [← flatMap_lines_cut ls, hcut, List.flatMap_append, List.flatMap_cons]
  cases hf with
  | @tag above below l p c split is_tag opens fails =>
    obtain ⟨more, rfl⟩ := agree_append ls ls' (good.flatMap lines ++ (above ++ [l]))
      (below ++ b.ending.toList ++ rest.flatMap lines) (by simp [hls, lines, split])
      (by simpa [Nat.add_assoc] using ha)
    have habove : ∀ m ∈ above, m.isDoc = true := fun m hm => hw.docs m (by simp [split, hm])
    rw [List.append_assoc]
    exact tag_fails_below good above more l p c hgood habove is_tag opens fails
  | @ending p c opens fails =>
    cases hb : b.ending with
    | some s =>
      obtain ⟨more, rfl⟩ := agree_append ls ls' (good.flatMap lines ++ b.lines)
        (rest.flatMap lines) (by rw [hls, List.append_assoc])
        (by simpa [lines, hb, Nat.add_assoc] using ha)
      have hended : b.Ended := ⟨hw.docs, s, hb, hw.ending s hb⟩
      have hcut' : cut (good.flatMap lines ++ b.lines ++ more) = good ++ b :: cut more := by
        rw [List.append_assoc, cut_flatMap_append good hgood, cut_ended_append b hended]
      exact ⟨b, cut more, hcut', .ending opens fails⟩
    | none =>
      -- No line is at fault but the end of the source, so nothing may stand below.
      have hlength : ls.length = (good.flatMap lines).length + b.docs.length := by
        simp [hls, hlast hb, lines, hb]
      obtain rfl : ls' = ls := agree_all ls ls' _ hlength ha
      exact ⟨b, rest, hcut, .ending opens fails⟩

end Block

theorem scanCode_eq (code : Text) (file : String) (line : Int) :
    scanCode code file line = Block.scanAll (Block.ofCode code file line) { file := file } :=
  (Block.scanAll_cut _ _).symm

theorem wellCut_of_mem_ofCode (code : Text) (file : String) (line : Int) (b : Block)
    (hb : b ∈ Block.ofCode code file line) : b.WellCut :=
  Block.wellCut_of_mem _ b hb

theorem extract_of_sound (code : Text) (file : String) (line : Int)
    (hs : ∀ b ∈ Block.ofCode code file line, b.Sound) :
    ∃ ds, List.Forall₂ Block.Declares ((Block.ofCode code file line).filter Block.tagged) ds ∧
      extract code file line =
        .ok ⟨marker file line ++ ((Block.ofCode code file line).flatMap Block.kept).flatten, ds⟩ := by
  have hy := Block.scanAll_yields file _ (wellCut_of_mem_ofCode code file line) hs
  refine ⟨_, hy.declares, ?_⟩
  rw [extract, scanCode_eq, Outcome.ofProgress, hy.failure_eq, hy.texts_eq]

theorem extract_of_fails (code : Text) (file : String) (line : Int) (good rest : List Block)
    (b : Block) (n : Nat) (c : Complaint) (hcut : Block.ofCode code file line = good ++ b::rest)
    (hgood : ∀ g ∈ good, g.Sound) (hf : b.Fails n c) :
    ∃ f, extract code file line = .error f ∧ f.complaint = c := by
  have hw : ∀ g ∈ good ++ b::rest, g.WellCut := hcut ▸ wellCut_of_mem_ofCode code file line
  have hy := Block.scanAll_yields file good (fun g hg => hw g (by simp [hg])) hgood
  obtain ⟨f, hfail, hc⟩ := Block.scan_fails file b n c (hw b (by simp)) hf
  have hscan : (scanCode code file line).failure = some f := by
    rw [scanCode_eq, hcut, Block.scanAll_append, Progress.andThen_failure, hy.failure_eq,
      hy.context_eq, Block.scanAll, Progress.andThen_failure, hfail]
    rfl
  exact ⟨f, by rw [extract, Outcome.ofProgress, hscan], hc⟩

theorem sound_of_extract (code : Text) (file : String) (line : Int) (o : Outcome)
    (h : extract code file line = .ok o) : ∀ b ∈ Block.ofCode code file line, b.Sound := by
  rcases Block.sound_or_first_fails (Block.ofCode code file line) with
    hs | ⟨good, b, rest, n, c, hcut, hgood, hf⟩
  · exact hs
  · obtain ⟨f, hf, -⟩ := extract_of_fails code file line good rest b n c hcut hgood hf
    simp [h] at hf

theorem extract_of_declares (code : Text) (file : String) (line : Int) (ds : List Declaration)
    (h : List.Forall₂ Block.Declares ((Block.ofCode code file line).filter Block.tagged) ds) :
    extract code file line =
      .ok ⟨marker file line ++ ((Block.ofCode code file line).flatMap Block.kept).flatten, ds⟩ := by
  have hs : ∀ b ∈ Block.ofCode code file line, b.Sound := by
    intro b hb ht
    exact Block.reads_of_declares _ _ h b (List.mem_filter.mpr ⟨hb, ht⟩)
  obtain ⟨es, hes, he⟩ := extract_of_sound code file line hs
  rw [he, Block.declares_unique _ _ _ hes h]

/-- The blocks make up the source, line by line. Extraction has an outcome exactly if every tagged one
of them reads as a declaration. The outcome is then what the blocks say: one declaration for each
tagged block, in order, and below the marker all lines but the documentation lines of those blocks. -/
theorem extract_by_blocks (code : Text) (file : String) (line : Int) :
    Text.Splits (((Block.ofCode code file line).flatMap Block.lines).map SourceLine.text) code ∧
    ((∃ o, extract code file line = .ok o) ↔
      ∀ b ∈ Block.ofCode code file line, b.tagged = true → Nonempty b.Reading) ∧
    ∀ o, extract code file line = .ok o ↔
      List.Forall₂ Block.Declares ((Block.ofCode code file line).filter Block.tagged)
        o.declarations ∧
      o.code = marker file line ++ ((Block.ofCode code file line).flatMap Block.kept).flatten := by
  refine ⟨?_, ?_, ?_⟩
  · rw [Block.ofCode, Block.flatMap_lines_cut]
    exact SourceLine.splits_ofCode code file line
  · constructor
    · rintro ⟨o, h⟩
      exact sound_of_extract code file line o h
    · intro hs
      obtain ⟨ds, -, h⟩ := extract_of_sound code file line hs
      exact ⟨_, h⟩
  · intro o
    constructor
    · intro h
      obtain ⟨ds, hds, h'⟩ := extract_of_sound code file line (sound_of_extract code file line o h)
      rw [h, Except.ok.injEq] at h'
      subst h'
      exact ⟨hds, rfl⟩
    · rintro ⟨hds, hcode⟩
      rw [extract_of_declares code file line o.declarations hds, ← hcode]

/-- A failure is the complaint of the first block that is not sound. The lines down to the one at
fault decide it alone: a source that agrees on them fails the same way. -/
theorem extract_first_failure (code : Text) (file : String) (line : Int) :
    (∀ f, extract code file line = .error f → ∃ good b rest n,
      Block.ofCode code file line = good ++ b::rest ∧ (∀ g ∈ good, g.Sound) ∧
        b.Fails n f.complaint) ∧
    ∀ good b rest n c, Block.ofCode code file line = good ++ b::rest →
      (∀ g ∈ good, g.Sound) → b.Fails n c → ∀ code',
        (SourceLine.ofCode code' file line).take ((good.flatMap Block.lines).length + n + 1) =
          (SourceLine.ofCode code file line).take ((good.flatMap Block.lines).length + n + 1) →
        ∃ f, extract code' file line = .error f ∧ f.complaint = c := by
  constructor
  · intro f h
    rcases Block.sound_or_first_fails (Block.ofCode code file line) with
      hs | ⟨good, b, rest, n, c, hcut, hgood, hf⟩
    · obtain ⟨ds, -, h'⟩ := extract_of_sound code file line hs
      simp [h] at h'
    · obtain ⟨f', h', hc⟩ := extract_of_fails code file line good rest b n c hcut hgood hf
      rw [h, Except.error.injEq] at h'
      subst h'
      exact ⟨good, b, rest, n, hcut, hgood, hc ▸ hf⟩
  · intro good b rest n c hcut hgood hf code' ha
    obtain ⟨b', rest', hcut', hf'⟩ := Block.fails_of_agree _ _ good rest b n c hcut hf ha
    exact extract_of_fails code' file line good rest' b' n c hcut' hgood hf'

end AnnotatedZig
