import AnnotatedZig.Proofs.Scan.Coherence
import AnnotatedZig.Proofs.Scan.Concatenation
import AnnotatedZig.Proofs.Scan.Naming
import Mathlib.Data.List.DropRight

/-!
# What the documentation says

The documentation is put together line by line, by one rule for text and another for blank lines, yet
it is a function of the lines that are held: what they say, a line each, from the first that says
something. That holds in every context that a session goes through. A declaration therefore has the
documentation of the lines right above its header, and of no others.
-/

set_option autoImplicit false

namespace AnnotatedZig

namespace Line

theorem feed_not_mem_body (text body : Text) (h : body? text = some body) : '\n' ∉ body := by
  rw [body?] at h
  split at h
  · simp at h
  · rw [Option.ite_none_right_eq_some, Option.some.injEq] at h
    obtain ⟨-, rfl⟩ := h
    intro hm
    simpa using List.mem_takeWhile_imp hm

theorem feed_not_mem_doc (text r : Text) (h : doc? text = some r) : '\n' ∉ r := by
  obtain ⟨body, hbody, hr⟩ := Option.bind_eq_some_iff.mp h
  obtain ⟨-, -, n, rfl⟩ := (docText_eq_some_iff body r).mp hr
  exact fun hm => feed_not_mem_body text _ hbody (by simp [hm])

theorem feed_not_mem_remark (line : Text) : '\n' ∉ remark line := by
  intro hm
  have hdoc := Text.trim_subset _ hm
  cases h : doc? (Text.terminated line) with
  | none => simp [h] at hdoc
  | some r => exact feed_not_mem_doc _ r h (by simpa [h] using hdoc)

theorem remark_untagged (line : Text) (h : isTag line = false) :
    ¬ "nif:".toList <+: remark line := by
  rw [isTag] at h
  rw [remark, ← isTagText_iff]
  cases hdoc : doc? (Text.terminated line) with
  | none => decide
  | some r => simpa [hdoc] using h

end Line

theorem documentation_eq_none_iff (rs : List Text) :
    documentation rs = none ↔ ∀ r ∈ rs, r = [] := by
  rw [documentation]
  split
  · next h => simpa using h
  · next r rs' h =>
    have hne : rs.dropWhile (· = []) ≠ [] := by simp [h]
    simpa using hne

theorem cut_documentation (rs : List Text) (t : Text) (hfeed : ∀ r ∈ rs, '\n' ∉ r)
    (h : documentation rs = some t) : Text.cut '\n' t = rs.dropWhile (· = []) := by
  have hkept : ∀ r ∈ rs.dropWhile (· = []), '\n' ∉ r := fun r hr =>
    hfeed r ((List.dropWhile_suffix _).subset hr)
  rw [documentation] at h
  generalize rs.dropWhile (· = []) = kept at h hkept
  cases kept with
  | nil => simp at h
  | cons r kept =>
    obtain rfl := Option.some.inj h
    rw [List.forall_mem_cons] at hkept
    rw [Text.joinWith_cons]
    exact Text.cut_pieces '\n' r kept hkept.1 hkept.2

theorem head_documentation (rs : List Text) (t : Text) (c : Char) (h : documentation rs = some t)
    (hc : t.head? = some c) : ∃ r ∈ rs, r.head? = some c := by
  rw [documentation] at h
  have hfirst := List.head?_dropWhile_not (· = []) rs
  split at h
  · simp at h
  · next r kept hkept =>
    obtain rfl := Option.some.inj h
    have hmem : r ∈ rs := (List.dropWhile_suffix (· = [])).subset (by simp [hkept])
    have hne : r ≠ [] := by simpa [hkept] using hfirst
    rw [Text.joinWith_cons, List.head?_append_of_ne_nil _ hne] at hc
    exact ⟨r, hmem, hc⟩

/-- The documentation `doc` is what the lines `ls` say that are no tags. It begins with a character
that is no blank, none of its lines begins as a tag does, and each of them stems from one of `ls`. -/
structure Says (ls : List SourceLine) (doc : Option Text) : Prop where
  doc_eq : doc = documentation (Block.remarks ls)
  none_iff : doc = none ↔ ∀ r ∈ Block.remarks ls, r = []
  lines_eq : ∀ t, doc = some t → Text.cut '\n' t = (Block.remarks ls).dropWhile (· = [])
  first : ∀ t c, doc = some t → t.head? = some c → Text.isBlank c = false
  untagged : ∀ t, doc = some t → ∀ u ∈ Text.cut '\n' t, ¬ "nif:".toList <+: u
  own : ∀ t, doc = some t → ∀ u ∈ Text.cut '\n' t,
    ∃ l ∈ ls, l.isTag = false ∧ Line.remark l.text = u

theorem Block.mem_remarks (ls : List SourceLine) (r : Text) (h : r ∈ remarks ls) :
    ∃ l ∈ ls, l.isTag = false ∧ Line.remark l.text = r := by
  obtain ⟨l, hl, rfl⟩ := List.mem_map.mp h
  obtain ⟨hmem, hplain⟩ := List.mem_filter.mp hl
  exact ⟨l, hmem, by simpa using hplain, rfl⟩

theorem says_documentation (ls : List SourceLine) : Says ls (documentation (Block.remarks ls)) := by
  have hfeed : ∀ r ∈ Block.remarks ls, '\n' ∉ r := by
    intro r hr
    obtain ⟨l, -, -, rfl⟩ := Block.mem_remarks ls r hr
    exact Line.feed_not_mem_remark l.text
  have hown (t : Text) (h : documentation (Block.remarks ls) = some t) (u : Text)
      (hu : u ∈ Text.cut '\n' t) : ∃ l ∈ ls, l.isTag = false ∧ Line.remark l.text = u := by
    rw [cut_documentation _ t hfeed h] at hu
    exact Block.mem_remarks ls u ((List.dropWhile_suffix _).subset hu)
  refine ⟨rfl, documentation_eq_none_iff _, fun t => cut_documentation _ t hfeed, ?_, ?_, hown⟩
  · intro t c h hc
    obtain ⟨r, hr, hrc⟩ := head_documentation _ t c h hc
    obtain ⟨l, -, -, rfl⟩ := Block.mem_remarks ls r hr
    exact Text.head_trim _ c hrc
  · intro t h u hu
    obtain ⟨l, -, hplain, rfl⟩ := hown t h u hu
    exact Line.remark_untagged l.text hplain

namespace Context

/-- The documentation so far is that of the held lines. -/
def Documented (c : Context) : Prop := c.doc = documentation (Block.remarks c.held)

theorem documented_effect (l : SourceLine) (c : Context) (p : Progress) (hc : Documented c)
    (effect : Effect l c p) : Documented p.context := by
  cases effect with
  | remark doc plain =>
    simp only [Documented, hold]
    rw [Block.remarks_concat_plain c.held l plain, documentation_concat, ← hc]
  | tag is_tag =>
    simp only [Documented, hold]
    rw [Block.remarks_concat_tag c.held l is_tag, ← hc]
  | declare => rfl
  | pass => rfl
  | refuse f => exact hc
  | reject f => exact hc

theorem documented_turn (c d : Context) (turn : Turn c d) (hc : Documented c) : Documented d := by
  cases turn with
  | line effect => exact documented_effect _ c _ hc effect
  | release => rfl
  | reset => rfl
  | rest => exact hc

theorem documented_trail (as : List Action) (c : Context) (hc : Documented c) :
    ∀ d ∈ c :: trail as c, Documented d := by
  have hvisits := (trail_chain as c).cons_induction Documented _
    (fun _ _ turn h => documented_turn _ _ turn h) hc
  exact List.forall_mem_cons.mpr ⟨hc, hvisits⟩

theorem documented_steps (ls : List SourceLine) (c : Context) (hc : Documented c) :
    Documented (steps ls c).context := by
  induction ls generalizing c with
  | nil => exact hc
  | cons l ls ih =>
    have hstep := documented_effect l c _ hc (effect_step l c)
    rw [steps]
    cases h : (c.step l).failure with
    | some f => rwa [Progress.andThen_of_failure _ _ f h]
    | none =>
      rw [Progress.andThen_context _ _ h]
      exact ih _ hstep

theorem held_steps (ls : List SourceLine) (c : Context) (hdocs : ∀ m ∈ c.held, m.isDoc = true)
    (h : (steps ls c).failure = none) :
    (steps ls c).context.held = (c.held ++ ls).rtakeWhile SourceLine.isDoc := by
  -- What is held is a suffix of the lines so far, so the induction adds a line at their end.
  induction ls using List.reverseRecOn with
  | nil => rw [List.append_nil, List.rtakeWhile_eq_self_iff.mpr hdocs, steps]
  | append_singleton ls l ih =>
    rw [steps_concat] at h ⊢
    obtain ⟨hnone, hstep⟩ := (Progress.andThen_none_iff _ _).mp h
    rw [Progress.andThen_context _ _ hnone, ← List.append_assoc]
    rcases step_given l _ hstep with ⟨doc, -, hheld⟩ | ⟨-, f, form, -, -, -, hheld⟩ |
      ⟨code, -, hheld⟩
    · rw [hheld, ih hnone, List.rtakeWhile_concat_pos _ _ _ doc]
    · rw [hheld, List.rtakeWhile_concat_neg _ _ _ (by simp [l.isDoc_of_header f form])]
    · rw [hheld, List.rtakeWhile_concat_neg _ _ _ (by simp [code])]

end Context

namespace Action

/-- The action on `c` comes to the line `l` below the lines `above`: the lines that are held, and in a
scan those of the source that stand above `l`. -/
inductive Reaches (c : Context) : Action → List SourceLine → SourceLine → Prop
  | scan {code : Text} {start : Int} {above below : List SourceLine} {l : SourceLine}
      (lines : SourceLine.ofCode code c.file start = above ++ l::below) :
      Reaches c (.scan code start) (c.held ++ above) l
  | header (text : Text) (line : Int) : Reaches c (.header text line) c.held ⟨text, c.file, line⟩

theorem declaration_of_perform (a : Action) (c : Context) (hdocs : ∀ m ∈ c.held, m.isDoc = true)
    (hc : c.Documented) (d : Declaration) (hd : d ∈ (a.perform c).progress.declarations) :
    ∃ above l h, a.Reaches c above l ∧ l.header? = some h ∧ h.name = d.name ∧
      d.loc = some l.loc ∧
      d.doc = documentation (Block.remarks (above.rtakeWhile SourceLine.isDoc)) := by
  cases a with
  | scan code start =>
    rw [perform, Context.declarations_scan] at hd
    obtain ⟨above, l, below, lines, hnone, hl⟩ := Context.mem_declarations_steps _ c d hd
    obtain ⟨h, form, name_eq, hloc, hdoc⟩ :=
      Context.declaration_of_effect l _ _ (Context.effect_step l _) d hl
    refine ⟨_, l, h, .scan lines, form, name_eq, hloc, ?_⟩
    rw [hdoc, Context.documented_steps above c hc, Context.held_steps above c hdocs hnone]
  | doc text line =>
    rw [perform] at hd
    cases htake : c.takeDoc? ⟨text, c.file, line⟩ with
    | none => simp [htake, Reply.unchanged, Progress.declarations] at hd
    | some p =>
      -- A line that is documentation is no header, and nothing else declares.
      simp only [htake] at hd
      have effect := Context.step_of_takeDoc _ c p htake ▸ Context.effect_step _ c
      obtain ⟨h, form, -⟩ := Context.declaration_of_effect _ c p effect d hd
      simp [Context.takeDoc_of_not_isDoc c _ (SourceLine.isDoc_of_header _ h form)] at htake
  | header text line =>
    rw [perform] at hd
    split at hd
    · next h form =>
      obtain ⟨x, hx, name_eq, hloc, hdoc⟩ := Context.declaration_of_effect _ c _
        (Context.effect_takeHeader ⟨text, c.file, line⟩ c h form) d hd
      refine ⟨_, _, x, .header text line, hx, name_eq, hloc, ?_⟩
      rw [hdoc, hc, List.rtakeWhile_eq_self_iff.mpr hdocs]
    · simp [Reply.unchanged, Progress.declarations] at hd
  | release => simp [perform, Context.release, Progress.declarations, Item.declaration?] at hd
  | reset => simp [perform, Progress.declarations] at hd

end Action

/-- In every context that a session goes through, those after its actions among them, the
documentation says what the held lines say. Whatever is declared next has the documentation that the
lines right above its header say, in one run of documentation lines. -/
theorem session_documented (file : String) (as : List Action) :
    ((session as { file := file }).map fun r => r.progress.context).Sublist
      (trail as { file := file }) ∧
    ∀ c ∈ ({ file := file } : Context) :: trail as { file := file },
      Says c.held c.doc ∧
      ∀ a : Action, ∀ d ∈ (a.perform c).progress.declarations, ∃ above l h,
        a.Reaches c above l ∧ l.header? = some h ∧ h.name = d.name ∧ d.loc = some l.loc ∧
        Says (above.rtakeWhile SourceLine.isDoc) d.doc := by
  have hcoherent := Context.coherent_trail as _ (Context.coherent_fresh file)
  have hdocumented := Context.documented_trail as { file := file } rfl
  refine ⟨session_trail as _, fun c hc => ⟨?_, ?_⟩⟩
  · have hdoc : c.doc = documentation (Block.remarks c.held) := hdocumented c hc
    rw [hdoc]
    exact says_documentation c.held
  · intro a d hd
    obtain ⟨above, l, h, hreaches, form, name_eq, hloc, hdoc⟩ :=
      a.declaration_of_perform c (hcoherent c hc).docs (hdocumented c hc) d hd
    refine ⟨above, l, h, hreaches, form, name_eq, hloc, ?_⟩
    rw [hdoc]
    exact says_documentation _

end AnnotatedZig
