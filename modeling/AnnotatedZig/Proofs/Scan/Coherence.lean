import AnnotatedZig.Proofs.Scan.Visits

/-!
# The tag that waits and the lines that are held

After a release a tag may wait though no line is held, so the tag that waits does not say which line
is held. But the held lines say what waits: a tag among them is the only one, and it waits. Without
a tag that waits, nothing that a header left behind is there, and what a release gives back is free
of tags.

A header is judged by all the types in the context, those that an earlier header left there included.
But only a header that fails leaves types behind, and a failure ends the scan: within one scan every
header is judged by its own types alone.
-/

set_option autoImplicit false

namespace AnnotatedZig

namespace Context

/-- The held lines are documentation. A tag among them is the only one, and it is the tag that
waits; and where no tag waits, nothing is left behind by headers either. -/
structure Coherent (c : Context) : Prop where
  docs : ∀ l ∈ c.held, l.isDoc = true
  tag : ∀ l ∈ c.held, l.isTag = true → c.held.filter SourceLine.isTag = [l] ∧
    ∃ t tag, l.tag? = some t ∧ Tag.ofLine t = .ok tag ∧ c.pending = some ⟨tag, l.loc⟩
  free : c.pending = none →
    (∀ l ∈ c.held, l.isTag = false) ∧ c.params = [] ∧ c.ret = none

def Leftover (c : Context) : Prop := c.params ≠ [] ∨ c.ret ≠ none

/-- What is left behind in `d`, next after `c`, belongs to one tag, which waits in both: `c` had it
already, or a header that bears the name of that tag has just been read for it. -/
def Bound (c d : Context) : Prop :=
  d.Leftover → ∃ p, c.pending = some p ∧ d.pending = some p ∧
    (d.params = c.params ∧ d.ret = c.ret ∨
      ∃ (h : Line.Header) (before after : List Text) (ts : List ZigType),
        h.name = p.tag.name ∧ h.paramTypes = before ++ after ∧
        before.map ZigType.read? = ts.map some ∧ d.params = c.params ++ ts ∧
        (d.ret = c.ret ∨ d.ret = ZigType.read? h.retType))

theorem coherent_fresh (file : String) : Coherent { file := file } where
  docs := by simp
  tag := by simp
  free := by simp

theorem coherent_release (c : Context) : Coherent c.release.context where
  docs := by simp [release]
  tag := by simp [release]
  free := by simp [release]

theorem coherent_remark (c : Context) (l : SourceLine) (doc : Option Text) (hc : Coherent c)
    (is_doc : l.isDoc = true) (plain : l.isTag = false) :
    Coherent ({ c with doc := doc }.hold l) where
  docs := List.forall_mem_append.mpr ⟨hc.docs, List.forall_mem_singleton.mpr is_doc⟩
  tag := by
    intro m hm ht
    have hmem : m ∈ c.held := by
      rcases List.mem_append.mp hm with hm | hm
      · exact hm
      · obtain rfl := List.mem_singleton.mp hm
        simp [plain] at ht
    obtain ⟨honly, hwaits⟩ := hc.tag m hmem ht
    exact ⟨by simp [hold, plain, honly], hwaits⟩
  free := by
    intro hnone
    obtain ⟨huntagged, hleft⟩ := hc.free hnone
    exact ⟨List.forall_mem_append.mpr ⟨huntagged, List.forall_mem_singleton.mpr plain⟩, hleft⟩

theorem coherent_tag (c : Context) (l : SourceLine) (t : Line.Tag) (tag : Tag) (hc : Coherent c)
    (is_tag : l.isTag = true) (free : c.pending = none) (form : l.tag? = some t)
    (read : Tag.ofLine t = .ok tag) : Coherent ({ c with pending := some ⟨tag, l.loc⟩ }.hold l) where
  docs :=
    List.forall_mem_append.mpr ⟨hc.docs, List.forall_mem_singleton.mpr (l.isDoc_of_isTag is_tag)⟩
  tag := by
    have huntagged := (hc.free free).1
    have honly : (c.held ++ [l]).filter SourceLine.isTag = [l] := by
      have hnone : c.held.filter SourceLine.isTag = [] := by simpa using huntagged
      simp [hnone, is_tag]
    intro m hm ht
    rcases List.mem_append.mp hm with hm | hm
    · simp [huntagged m hm] at ht
    · obtain rfl := List.mem_singleton.mp hm
      exact ⟨honly, t, tag, form, read, rfl⟩
  free := by simp [hold]

theorem coherent_effect (l : SourceLine) (c : Context) (p : Progress) (hc : Coherent c)
    (effect : Effect l c p) : Coherent p.context := by
  cases effect with
  | remark doc plain => exact coherent_remark c l _ hc doc plain
  | tag is_tag free form length read =>
    subst read
    exact coherent_tag c l _ _ hc is_tag free form (tag_of_length _ length)
  | declare => exact coherent_fresh c.file
  | pass => exact coherent_fresh c.file
  | refuse f => exact hc
  | reject f waits => exact ⟨hc.docs, hc.tag, by simp [Progress.fail, waits]⟩

theorem coherent_turn (c d : Context) (turn : Turn c d) (hc : Coherent c) : Coherent d := by
  cases turn with
  | line effect => exact coherent_effect _ c _ hc effect
  | release => exact coherent_release c
  | reset => exact coherent_fresh c.file
  | rest => exact hc

theorem pending_of_leftover (c : Context) (hc : Coherent c) (h : c.Leftover) :
    ∃ p, c.pending = some p := by
  cases hp : c.pending with
  | some p => exact ⟨p, rfl⟩
  | none =>
    obtain ⟨-, hparams, hret⟩ := hc.free hp
    simp [Leftover, hparams, hret] at h

theorem bound_same (c d : Context) (hc : Coherent c) (hp : d.pending = c.pending)
    (hparams : d.params = c.params) (hret : d.ret = c.ret) : Bound c d := by
  intro hleft
  have hleft' : c.Leftover := by rwa [Leftover, hparams, hret] at hleft
  obtain ⟨p, hwaits⟩ := pending_of_leftover c hc hleft'
  exact ⟨p, hwaits, hp.trans hwaits, .inl ⟨hparams, hret⟩⟩

theorem bound_clean (c d : Context) (hparams : d.params = []) (hret : d.ret = none) :
    Bound c d := by
  intro hleft
  simp [Leftover, hparams, hret] at hleft

theorem bound_effect (l : SourceLine) (c : Context) (p : Progress) (hc : Coherent c)
    (effect : Effect l c p) : Bound c p.context := by
  cases effect with
  | remark => exact bound_same c _ hc rfl rfl rfl
  | tag is_tag free =>
    obtain ⟨-, hparams, hret⟩ := hc.free free
    exact bound_clean c _ hparams hret
  | declare => exact bound_clean c _ rfl rfl
  | pass => exact bound_clean c _ rfl rfl
  | refuse f => exact bound_same c _ hc rfl rfl rfl
  | reject f waits form name_eq split known ret_eq =>
    intro _
    exact ⟨_, waits, waits, .inr ⟨_, _, _, _, name_eq, split, known, rfl, ret_eq⟩⟩

theorem bound_turn (c d : Context) (turn : Turn c d) (hc : Coherent c) : Bound c d := by
  cases turn with
  | line effect => exact bound_effect _ c _ hc effect
  | release => exact bound_clean c _ rfl rfl
  | reset => exact bound_clean c _ rfl rfl
  | rest => exact bound_same c c hc rfl rfl rfl

theorem coherent_trail (as : List Action) (c : Context) (hc : Coherent c) :
    ∀ d ∈ c :: trail as c, Coherent d := by
  have hchain := trail_chain as c
  have hvisits := hchain.cons_induction Coherent _ (fun _ _ turn h => coherent_turn _ _ turn h) hc
  exact List.forall_mem_cons.mpr ⟨hc, hvisits⟩

theorem bound_trail (as : List Action) (c : Context) (hc : Coherent c) :
    (c :: trail as c).IsChain Bound :=
  (trail_chain as c).imp_of_mem_imp fun d _ hd _ turn =>
    bound_turn d _ turn (coherent_trail as c hc d hd)

theorem release_untagged (c : Context) (hc : Coherent c) (free : c.pending = none) :
    ∀ t ∈ c.release.texts, Line.isTag t = false := by
  have huntagged := (hc.free free).1
  intro t ht
  obtain ⟨l, hl, rfl⟩ : ∃ l ∈ c.held, l.text = t := by
    simpa [release, Progress.texts, List.filterMap_map, Function.comp_def, Item.text?] using ht
  exact huntagged l hl

end Context

/-- Whatever a session does, every context that it goes through is coherent, those after its
actions among them: the held lines are documentation lines with at most one tag, which is then the
tag that waits, and with no tag waiting there is neither a held tag nor anything that a header left
behind. So a release gives back no tag line unless a tag waits, and what a header left behind is
there only as long as the tag that it was read for waits. -/
theorem session_coherent (file : String) (as : List Action) :
    ((session as { file := file }).map fun r => r.progress.context).Sublist
      (trail as { file := file }) ∧
    (∀ c ∈ trail as { file := file }, c.Coherent) ∧
    (∀ c ∈ ({ file := file } : Context) :: trail as { file := file },
      c.pending = none → ∀ t ∈ c.release.texts, Line.isTag t = false) ∧
    (({ file := file } : Context) :: trail as { file := file }).IsChain Context.Bound := by
  have hfresh := Context.coherent_fresh file
  have hall := Context.coherent_trail as _ hfresh
  refine ⟨session_trail as _, ?_, ?_, Context.bound_trail as _ hfresh⟩
  · exact (List.forall_mem_cons.mp hall).2
  · intro c hc free
    exact c.release_untagged (hall c hc) free

namespace Context

theorem not_leftover_iff (c : Context) : ¬ c.Leftover ↔ c.params = [] ∧ c.ret = none := by
  simp [Leftover]

theorem not_leftover_step (l : SourceLine) (c : Context) (hc : ¬ c.Leftover)
    (h : (c.step l).failure = none) : ¬ (c.step l).context.Leftover := by
  have effect := effect_step l c
  generalize c.step l = p at effect h
  cases effect with
  | remark => exact hc
  | tag => exact hc
  | declare => simp [Leftover, reset]
  | pass => simp [Leftover, reset]
  | refuse f => simp [Progress.fail] at h
  | reject f => simp [Progress.fail] at h

theorem not_leftover_steps (ls : List SourceLine) (c : Context) (hc : ¬ c.Leftover)
    (h : (steps ls c).failure = none) : ¬ (steps ls c).context.Leftover := by
  induction ls generalizing c with
  | nil => exact hc
  | cons l ls ih =>
    rw [steps] at h ⊢
    obtain ⟨hstep, hrest⟩ := (Progress.andThen_none_iff _ _).mp h
    rw [Progress.andThen_context _ _ hstep]
    exact ih _ (not_leftover_step l c hc hstep) hrest

end Context

/-- The verdict says exactly what a header comes to, in any context: what is given out, how it fails
and which fields have changed then. In a scan of a source from a fresh context, no types are left
behind at any line that the scan comes to, so each header is judged by its own. -/
theorem header_verdict (h : Line.Header) (l : SourceLine) (c : Context) :
    (∀ q, c.takeHeader h l = q ↔ Context.Verdict h l c q) ∧
    ∀ code file line above below, SourceLine.ofCode code file line = above ++ l::below →
      (Context.steps above { file := file }).failure = none →
      (Context.steps above { file := file }).context.params = [] ∧
        (Context.steps above { file := file }).context.ret = none := by
  refine ⟨Context.takeHeader_eq_iff h l c, ?_⟩
  intro code file line above below _ hnone
  have hfresh : ¬ Context.Leftover { file := file } := by simp [Context.Leftover]
  exact (Context.not_leftover_iff _).mp (Context.not_leftover_steps above _ hfresh hnone)

/-- The type that a failed header left behind makes one parameter too many. -/
example : (Context.takeHeader ⟨['f'], [], "void".toList, []⟩ ⟨[], "a.zig", 2⟩
    { file := "a.zig", pending := some ⟨⟨['f'], 0, []⟩, "a.zig", 1⟩
      params := [.scalar .i64] }).failure =
      some (.defect (.arityMismatch 0 1) ⟨"a.zig", 2⟩) := by decide

end AnnotatedZig
