import AnnotatedZig.Proofs.Scan.Waiting

/-!
# The place of a tag in its block

Documentation lines leave the tag that waits alone, and a tag leaves the documentation alone. So it
does not matter where a tag stands among the documentation lines of its block: the source is extracted
to the same outcome, or fails in the same way. Only where the failure is that this very tag has no header
does it move along with the tag.
-/

set_option autoImplicit false

namespace AnnotatedZig

/-- A whole documentation line that is no tag. -/
structure Line.IsRemark (t : Text) : Prop where
  is_line : Text.IsLine t
  ended : Text.Ended t
  doc : isDoc t = true
  plain : isTag t = false

namespace Context

def addDocs (rs : List Text) (doc : Option Text) : Option Text :=
  rs.foldl (fun d r => addDoc (Line.remark r) d) doc

def remarked (ls : List SourceLine) (c : Context) : Context :=
  { c with doc := addDocs (ls.map SourceLine.text) c.doc, held := c.held ++ ls }

theorem pending_remarked (ls : List SourceLine) (c : Context) :
    (c.remarked ls).pending = c.pending := rfl

theorem steps_remarks (ls : List SourceLine) (c : Context)
    (h : ∀ l ∈ ls, l.isDoc = true ∧ l.isTag = false) :
    steps ls c = { context := c.remarked ls } := by
  induction ls generalizing c with
  | nil => simp [steps, remarked, addDocs]
  | cons l ls ih =>
    rw [List.forall_mem_cons] at h
    obtain ⟨⟨doc, plain⟩, hls⟩ := h
    rw [steps, step_plain c l doc plain, Progress.andThen_of_none _ _ rfl, ih _ hls]
    simp [remarked, addDocs, hold]

/-- The lines `ls` and `ms` around the tag line `l` are remarks with the texts `rs`, in order. -/
structure Around (rs : List Text) (u : Line.Tag) (ls : List SourceLine) (l : SourceLine)
    (ms : List SourceLine) : Prop where
  docs : ∀ m ∈ ls ++ ms, m.isDoc = true ∧ m.isTag = false
  texts : (ls ++ ms).map SourceLine.text = rs
  is_tag : l.isTag = true
  form : l.tag? = some u

theorem steps_around (rs : List Text) (u : Line.Tag) (ls ms : List SourceLine) (l : SourceLine)
    (c : Context) (h : Around rs u ls l ms) :
    steps (ls ++ l::ms) c = ((c.remarked ls).takeTag l).andThen (steps ms) := by
  obtain ⟨hls, -⟩ := List.forall_mem_append.mp h.docs
  rw [steps_append, steps_remarks ls c hls, Progress.andThen_of_none _ _ rfl, steps,
    step_tag _ l h.is_tag]
  simp

/-- What a tag among remarks comes to, in the same words for each place that it may have there. -/
inductive Amid (rs : List Text) (u : Line.Tag) (c : Context) : Prop
  | lost (p : Pending) (waits : c.pending = some p)
      (steps_eq : ∀ ls l ms, Around rs u ls l ms →
        ∃ d, steps (ls ++ l::ms) c = .fail d p.missingHeader) : Amid rs u c
  | digits (n : Nat) (steps_eq : ∀ ls l ms, Around rs u ls l ms →
      ∃ d, steps (ls ++ l::ms) c = .fail d (.numeralTooLong n)) : Amid rs u c
  | waits (t : Tag) (d : Context) (name_eq : t.name = u.name)
      (steps_eq : ∀ ls l ms, Around rs u ls l ms → ∃ hs,
        steps (ls ++ l::ms) c =
          { context := d.waiting t l.loc hs, events := [.pending ⟨t, l.loc⟩] }) : Amid rs u c

theorem amid_remarks (rs : List Text) (u : Line.Tag) (c : Context) : Amid rs u c := by
  cases free : c.pending with
  | some p =>
    refine .lost p free fun ls l ms h => ?_
    rw [steps_around rs u ls ms l c h, takeTag_second l _ u p h.form (pending_remarked ls c ▸ free),
      Progress.andThen_of_failure _ _ _ rfl]
    exact ⟨_, rfl⟩
  | none =>
    by_cases length : u.digits.length ≤ Text.digitLimit
    · refine .waits ⟨u.name, Nat.ofDigitChars 10 u.digits 0, u.options⟩
        { c with doc := addDocs rs c.doc } rfl fun ls l ms h => ⟨c.held ++ (ls ++ l::ms), ?_⟩
      obtain ⟨-, hms⟩ := List.forall_mem_append.mp h.docs
      rw [steps_around rs u ls ms l c h, takeTag_form _ l u h.form (pending_remarked ls c ▸ free) length,
        Progress.andThen_of_none _ _ rfl, steps_remarks ms _ hms]
      simp [waiting, remarked, hold, addDocs, ← h.texts]
    · have long := Nat.not_le.mp length
      refine .digits u.digits.length fun ls l ms h => ?_
      rw [steps_around rs u ls ms l c h, takeTag_long l _ u h.form (pending_remarked ls c ▸ free) long,
        Progress.andThen_of_failure _ _ _ rfl]
      exact ⟨_, rfl⟩

end Context

def sourceAround (pre : Text) (above : List Text) (tag : Text) (below : List Text) (post : Text) :
    Text :=
  pre ++ ((above ++ tag::below).flatten ++ post)

structure Surrounds (pre : Text) (rs : List Text) (tag : Text) (u : Line.Tag) : Prop where
  closed : Text.Closed pre
  remarks : ∀ t ∈ rs, Line.IsRemark t
  is_line : Text.IsLine tag
  ended : Text.Ended tag
  form : Line.tag? tag = some u

section Source

variable (pre tag post : Text) (rs : List Text) (u : Line.Tag) (file : String) (line : Int)

theorem around_number (h : Surrounds pre rs tag u) (above below : List Text)
    (hrs : above ++ below = rs) (n : Int) :
    Context.Around rs u (SourceLine.number file n above) ⟨tag, file, n + above.length⟩
      (SourceLine.number file (n + above.length + 1) below) := by
  have hterminated : Text.terminated tag = tag := if_pos h.ended
  have htexts : (SourceLine.number file n above ++
      SourceLine.number file (n + above.length + 1) below).map SourceLine.text = rs := by
    rw [List.map_append, SourceLine.map_text_number, SourceLine.map_text_number, hrs]
  obtain ⟨remark, hdoc, hnif⟩ := Line.doc_of_tag tag u h.form
  refine ⟨fun m hm => ?_, htexts, ?_, ?_⟩
  · have hmem : m.text ∈ rs := htexts ▸ List.mem_map_of_mem hm
    exact ⟨(h.remarks _ hmem).doc, (h.remarks _ hmem).plain⟩
  · show ((Line.doc? (Text.terminated tag)).any Line.isTagText) = true
    rw [hterminated, hdoc, Option.any_some, hnif]
  · show Line.tag? (Text.terminated tag) = some u
    rw [hterminated, h.form]

theorem scanCode_sourceAround (h : Surrounds pre rs tag u) (above below : List Text)
    (hrs : above ++ below = rs) :
    scanCode (sourceAround pre above tag below post) file line =
      (Context.steps (SourceLine.ofCode pre file line) { file := file }).andThen fun c =>
        (Context.steps (SourceLine.number file (line + pre.count '\n') above ++
          ⟨tag, file, line + pre.count '\n' + above.length⟩ ::
            SourceLine.number file (line + pre.count '\n' + above.length + 1) below) c).andThen
          (Context.rest (SourceLine.ofCode post file (line + pre.count '\n' + (rs.length + 1)))) := by
  have hlines : ∀ t ∈ above ++ tag::below, Text.IsLine t ∧ Text.Ended t := by
    intro t ht
    have hcases : t = tag ∨ t ∈ rs := by
      simp only [← hrs, List.mem_append, List.mem_cons] at ht ⊢
      tauto
    rcases hcases with rfl | ht
    · exact ⟨h.is_line, h.ended⟩
    · exact ⟨(h.remarks t ht).is_line, (h.remarks t ht).ended⟩
  have hlength : ((above ++ tag::below).length : Int) = rs.length + 1 := by
    simp only [← hrs, List.length_append, List.length_cons]
    omega
  have hscan (code : Text) :
      scanCode code file line = Context.rest (SourceLine.ofCode code file line) { file := file } := rfl
  rw [hscan, sourceAround, SourceLine.ofCode_append _ _ file line h.closed,
    SourceLine.ofCode_flatten _ _ file _ hlines, hlength, SourceLine.number_append, Context.rest_append]
  congr 1
  funext c
  rw [Context.rest_append]
  rfl

/-- The lines of the tag and the remarks around it are not to blame. -/
def Failure.Outside (top : Int) (n : Nat) (f : Failure) : Prop :=
  ∀ d loc, f = .defect d loc → loc.line < top ∨ top + n < loc.line

theorem outside_above (hpre : Text.Closed pre) (n : Nat) (f : Failure)
    (h : Blamed (SourceLine.ofCode pre file line) f) :
    f.Outside (line + pre.count '\n') n := by
  rintro d loc rfl
  obtain ⟨l, hl, rfl⟩ := loc_of_blamed _ d loc h
  have hlt := SourceLine.line_lt_of_mem_number file line _ l hl
  rw [Text.length_splitLines pre hpre] at hlt
  exact .inl hlt

theorem outside_below (top : Int) (n : Nat) (f : Failure)
    (h : Blamed (SourceLine.ofCode post file (top + (n + 1))) f) : f.Outside top n := by
  rintro d loc rfl
  obtain ⟨l, hl, rfl⟩ := loc_of_blamed _ d loc h
  have hle := SourceLine.le_line_of_mem_number file _ _ l hl
  exact .inr (by omega)

/-- What the source is extracted to, wherever among the remarks the tag stands: one result for all
places, for which neither the tag nor a remark is to blame, or the tag has no header. -/
inductive Extracted : Prop
  | same (r : Except Failure Outcome)
      (extract_eq : ∀ above below, above ++ below = rs →
        extract (sourceAround pre above tag below post) file line = r)
      (outside : ∀ f, r = .error f → f.Outside (line + pre.count '\n') rs.length) : Extracted
  | lost (extract_eq : ∀ above below, above ++ below = rs →
      extract (sourceAround pre above tag below post) file line =
        .error (.defect (.missingHeader u.name) ⟨file, line + pre.count '\n' + above.length⟩)) :
      Extracted

theorem extracted_of_failure (f : Failure)
    (outside : f.Outside (line + pre.count '\n') rs.length)
    (failure_eq : ∀ above below, above ++ below = rs →
      (scanCode (sourceAround pre above tag below post) file line).failure = some f) :
    Extracted pre tag post rs u file line := by
  refine .same (.error f) (fun above below hrs => ?_) fun g hg => ?_
  · exact (extract_eq_error_iff ..).mpr (failure_eq above below hrs)
  · obtain rfl := Except.error.inj hg
    exact outside

theorem extracted_of_waits (t : Tag) (name_eq : t.name = u.name) (d : Context) (items : List Item)
    (scan_eq : ∀ above below, above ++ below = rs → ∃ hs, ∃ events : List Event,
      scanCode (sourceAround pre above tag below post) file line =
        Progress.andThen
          { context := d.waiting t ⟨file, line + pre.count '\n' + above.length⟩ hs
            items := items, events := events }
          (Context.rest (SourceLine.ofCode post file (line + pre.count '\n' + (rs.length + 1))))) :
    Extracted pre tag post rs u file line := by
  cases Context.ensues_rest t
    (SourceLine.ofCode post file (line + pre.count '\n' + (rs.length + 1))) d with
  | same more f blamed rest_eq =>
    refine .same (Outcome.ofProgress file line
      { context := d, items := items ++ more, failure := f }) (fun above below hrs => ?_)
      fun g hg => ?_
    · obtain ⟨hs, events, hscan⟩ := scan_eq above below hrs
      obtain ⟨hitems, hfailure⟩ := rest_eq ⟨file, line + pre.count '\n' + above.length⟩ hs
      rw [extract, hscan]
      apply Outcome.ofProgress_congr
      · rw [Progress.andThen_items _ _ rfl, hitems]
      · rw [Progress.andThen_failure, hfailure, Option.none_or]
    · cases f with
      | none => simp [Outcome.ofProgress] at hg
      | some f =>
        obtain rfl := Except.error.inj hg
        exact outside_below post file _ rs.length f (blamed f rfl)
  | lost rest_eq =>
    refine .lost fun above below hrs => ?_
    obtain ⟨hs, events, hscan⟩ := scan_eq above below hrs
    rw [extract_eq_error_iff, hscan, Progress.andThen_failure, rest_eq, Pending.missingHeader,
      name_eq, Option.none_or]

theorem extracted (h : Surrounds pre rs tag u) : Extracted pre tag post rs u file line := by
  have hscan := scanCode_sourceAround pre tag post rs u file line h
  have haround := around_number pre tag rs u file h
  have hlocated := Context.located_steps _ _ _ (List.Subset.refl (SourceLine.ofCode pre file line))
    (Context.rooted_free _ { file := file } rfl)
  generalize Context.steps (SourceLine.ofCode pre file line) { file := file } = p at hscan hlocated
  have habove (f : Failure) (hf : Blamed (SourceLine.ofCode pre file line) f) :=
    outside_above pre file line h.closed rs.length f hf
  cases hp : p.failure with
  | some f =>
    refine extracted_of_failure pre tag post rs u file line f (habove f (hlocated.blamed f hp)) ?_
    intro above below hrs
    rw [hscan above below hrs, Progress.andThen_of_failure _ _ f hp, hp]
  | none =>
    cases Context.amid_remarks rs u p.context with
    | lost q waits steps_eq =>
      have hblamed := Context.blamed_missingHeader _ _ hlocated.rooted q waits
      refine extracted_of_failure pre tag post rs u file line _ (habove _ hblamed) ?_
      intro above below hrs
      obtain ⟨d, hd⟩ := steps_eq _ _ _ (haround above below hrs _)
      rw [hscan above below hrs, Progress.andThen_failure, hp, hd]
      rfl
    | digits n steps_eq =>
      have houtside : (Failure.numeralTooLong n).Outside (line + pre.count '\n') rs.length := by
        rintro d loc ⟨⟩
      refine extracted_of_failure pre tag post rs u file line _ houtside ?_
      intro above below hrs
      obtain ⟨d, hd⟩ := steps_eq _ _ _ (haround above below hrs _)
      rw [hscan above below hrs, Progress.andThen_failure, hp, hd]
      rfl
    | waits t d name_eq steps_eq =>
      refine extracted_of_waits pre tag post rs u file line t name_eq d p.items ?_
      intro above below hrs
      obtain ⟨hs, hsteps⟩ := steps_eq _ _ _ (haround above below hrs _)
      refine ⟨hs, p.events ++ [.pending ⟨t, file, line + pre.count '\n' + above.length⟩], ?_⟩
      rw [hscan above below hrs, Progress.andThen_of_none _ _ hp, hsteps]
      simp [Progress.andThen]

end Source

/-- It does not matter where among the other documentation lines of its block a tag stands: the source
is extracted to the same outcome, or fails in the same way, for which a line outside is to blame if any
is. The one exception is that this tag is left without a header, for which its own line is to blame. -/
theorem extract_tag_anywhere (pre tag post : Text) (above below above' below' : List Text)
    (u : Line.Tag) (file : String) (line : Int) (hpre : Text.Closed pre)
    (hremarks : ∀ t ∈ above ++ below, Line.IsRemark t) (hsplit : above ++ below = above' ++ below')
    (hline : Text.IsLine tag) (hended : Text.Ended tag) (form : Line.tag? tag = some u) :
    (∃ o, extract (sourceAround pre above tag below post) file line = .ok o ∧
      extract (sourceAround pre above' tag below' post) file line = .ok o) ∨
    (∃ f, extract (sourceAround pre above tag below post) file line = .error f ∧
      extract (sourceAround pre above' tag below' post) file line = .error f ∧
      ∀ d loc, f = .defect d loc → loc.line < line + pre.count '\n' ∨
        line + pre.count '\n' + (above ++ below).length < loc.line) ∨
    (extract (sourceAround pre above tag below post) file line =
        .error (.defect (.missingHeader u.name) ⟨file, line + pre.count '\n' + above.length⟩) ∧
      extract (sourceAround pre above' tag below' post) file line =
        .error (.defect (.missingHeader u.name) ⟨file, line + pre.count '\n' + above'.length⟩)) := by
  cases extracted pre tag post (above ++ below) u file line ⟨hpre, hremarks, hline, hended, form⟩ with
  | same r extract_eq outside =>
    have hfirst := extract_eq above below rfl
    have hsecond := extract_eq above' below' hsplit.symm
    cases r with
    | ok o => exact .inl ⟨o, hfirst, hsecond⟩
    | error f => exact .inr (.inl ⟨f, hfirst, hsecond, outside f rfl⟩)
  | lost extract_eq =>
    exact .inr (.inr ⟨extract_eq above below rfl, extract_eq above' below' hsplit.symm⟩)

def twoParagraphs : List Text := ["/// a\n".toList, "///\n".toList, "/// b\n".toList]

def paragraphsSource (above below : List Text) : Text :=
  sourceAround "const a = 1;\n".toList above "/// nif: f/0 long\n".toList below
    "fn f() void \x7b".toList

theorem extract_tag_anywhere_paragraphs :
    ∃ o, extract (paragraphsSource [] twoParagraphs) "a.zig" 7 = .ok o ∧
      extract (paragraphsSource twoParagraphs []) "a.zig" 7 = .ok o ∧
      o.declarations.map Declaration.doc = [some "a\n\nb".toList] := by
  have hremarks : ∀ t ∈ [] ++ twoParagraphs, Line.IsRemark t := by
    simp only [List.nil_append, twoParagraphs, List.forall_mem_cons]
    exact ⟨⟨⟨by decide, by decide⟩, rfl, rfl, rfl⟩, ⟨⟨by decide, by decide⟩, rfl, rfl, rfl⟩,
      ⟨⟨by decide, by decide⟩, rfl, rfl, rfl⟩, by simp⟩
  have hrun : extract (paragraphsSource [] twoParagraphs) "a.zig" 7 =
      .ok ⟨marker "a.zig" 7 ++ "const a = 1;\nfn f() void \x7b".toList,
        [{ name := ['f'], arity := 0, params := [], ret := .scalar .void
           doc := some "a\n\nb".toList, options := [.long], env := none
           loc := some ⟨"a.zig", 12⟩ }]⟩ := by
    rfl
  rcases extract_tag_anywhere "const a = 1;\n".toList "/// nif: f/0 long\n".toList
      "fn f() void \x7b".toList [] twoParagraphs twoParagraphs [] ⟨['f'], ['0'], [.long]⟩ "a.zig" 7
      (.inr rfl) hremarks rfl ⟨by decide, by decide⟩ rfl rfl with
    ⟨o, hfirst, hsecond⟩ | ⟨f, hfirst, -⟩ | ⟨hfirst, -⟩
  · obtain rfl := Except.ok.inj (hrun.symm.trans hfirst)
    exact ⟨_, hfirst, hsecond, rfl⟩
  · exact absurd (hrun.symm.trans hfirst) (by simp)
  · exact absurd (hrun.symm.trans hfirst) (by simp)

end AnnotatedZig
