import AnnotatedZig.Proofs.Block.Opening

/-!
# What a header comes to

With no tag waiting, a header gives the block back and ends it. Below a waiting tag it is checked in
turn for its name, its parameter types, its return type and the number of its parameters. The types
are kept in the context as they are read, so a header that fails leaves behind those that it got to,
and what was left behind before counts among the parameters of the next one.
-/

set_option autoImplicit false

namespace AnnotatedZig.Context

/-- What the header `h` at the line `l` makes of the context `c`, and what it gives out. -/
inductive Verdict (h : Line.Header) (l : SourceLine) (c : Context) : Progress → Prop
  | pass (free : c.pending = none) :
      Verdict h l c
        { context := { file := c.file }
          items := c.held.map (fun m => .text m.text) ++ [.text l.text]
          events := [.passing h.name l.loc] }
  | stray {p : Pending} (waits : c.pending = some p) (name_ne : h.name ≠ p.tag.name) :
      Verdict h l c (.fail c (.defect (.strayHeader p.tag.name h.name) l.loc))
  | param {p : Pending} {before after : List Text} {t : Text} {ts : List ZigType}
      (waits : c.pending = some p) (name_eq : h.name = p.tag.name)
      (split : h.paramTypes = before ++ t::after)
      (known : before.map ZigType.read? = ts.map some) (unknown : ZigType.read? t = none) :
      Verdict h l c
        (.fail { c with params := c.params ++ ts } (.defect (.unsupportedParam p.tag.name t) l.loc))
  | ret {p : Pending} {ts : List ZigType} (waits : c.pending = some p)
      (name_eq : h.name = p.tag.name) (known : h.paramTypes.map ZigType.read? = ts.map some)
      (unknown : ZigType.read? h.retType = none) :
      Verdict h l c
        (.fail { c with params := c.params ++ ts }
          (.defect (.unsupportedReturn p.tag.name h.retType) l.loc))
  | arity {p : Pending} {ts ps : List ZigType} {ret : ZigType} {env : Option ZigType}
      (waits : c.pending = some p) (name_eq : h.name = p.tag.name)
      (known : h.paramTypes.map ZigType.read? = ts.map some)
      (ret_known : ZigType.read? h.retType = some ret)
      (split : ZigType.splitEnv (c.params ++ ts) = (env, ps)) (arity_ne : ps.length ≠ p.tag.arity) :
      Verdict h l c
        (.fail { c with params := c.params ++ ts, ret := some ret }
          (.defect (.arityMismatch p.tag.arity ps.length) l.loc))
  | declare {p : Pending} {ts ps : List ZigType} {ret : ZigType} {env : Option ZigType}
      {d : Declaration} (waits : c.pending = some p) (name_eq : h.name = p.tag.name)
      (known : h.paramTypes.map ZigType.read? = ts.map some)
      (ret_known : ZigType.read? h.retType = some ret)
      (split : ZigType.splitEnv (c.params ++ ts) = (env, ps)) (arity_eq : ps.length = p.tag.arity)
      (made : d =
        { name := p.tag.name, arity := p.tag.arity, params := ps, ret := ret, doc := c.doc
          options := p.tag.options, env := env, loc := some l.loc }) :
      Verdict h l c
        { context := { file := c.file }, items := [.text l.text, .declaration d]
          events := [.declared d l.loc] }

theorem takeParams_append (texts more : List Text) (ts : List ZigType) (c : Context)
    (h : texts.map ZigType.read? = ts.map some) :
    takeParams (texts ++ more) c = takeParams more { c with params := c.params ++ ts } := by
  induction texts generalizing ts c with
  | nil =>
    obtain rfl : ts = [] := by simpa using h.symm
    simp
  | cons t texts ih =>
    obtain ⟨u, ts, rfl⟩ : ∃ u us, ts = u::us := by
      cases ts with
      | nil => simp at h
      | cons u us => exact ⟨u, us, rfl⟩
    simp only [List.map_cons, List.cons.injEq] at h
    rw [List.cons_append, takeParams, h.1]
    simp [ih ts _ h.2]

theorem takeParams_known (texts : List Text) (ts : List ZigType) (c : Context)
    (h : texts.map ZigType.read? = ts.map some) :
    takeParams texts c = ({ c with params := c.params ++ ts }, none) := by
  simpa [takeParams] using takeParams_append texts [] ts c h

theorem passThrough_free (c : Context) (l : SourceLine) (free : c.pending = none) :
    c.passThrough l =
      { context := c.reset, items := c.held.map (fun m => .text m.text) ++ [.text l.text] } := by
  rw [passThrough, Progress.andThen_of_none _ _ rfl]
  simp [release, reset, free]

theorem takeHeader_waits (c : Context) (p : Pending) (h : Line.Header) (l : SourceLine)
    (waits : c.pending = some p) : c.takeHeader h l = c.takeTagged p h l := by
  rw [takeHeader, waits]

theorem takeHeader_of_verdict (h : Line.Header) (l : SourceLine) (c : Context) (q : Progress)
    (verdict : Verdict h l c q) : c.takeHeader h l = q := by
  cases verdict with
  | pass free => rw [takeHeader, free, passThrough_free c l free, reset]
  | stray waits name_ne => rw [takeHeader_waits c _ h l waits, takeTagged, if_neg name_ne]
  | param waits name_eq split known unknown =>
    rw [takeHeader_waits c _ h l waits, takeTagged, if_pos name_eq, split,
      takeParams_append _ _ _ _ known, takeParams, unknown]
  | ret waits name_eq known unknown =>
    rw [takeHeader_waits c _ h l waits, takeTagged, if_pos name_eq, takeParams_known _ _ _ known,
      unknown]
  | arity waits name_eq known ret_known split arity_ne =>
    rw [takeHeader_waits c _ h l waits, takeTagged, if_pos name_eq, takeParams_known _ _ _ known,
      ret_known]
    simp only [Context.declare, split, arity_ne, if_false]
  | declare waits name_eq known ret_known split arity_eq made =>
    rw [takeHeader_waits c _ h l waits, takeTagged, if_pos name_eq, takeParams_known _ _ _ known,
      ret_known, made]
    simp only [Context.declare, split, arity_eq, if_true]
    rfl

theorem exists_verdict (h : Line.Header) (l : SourceLine) (c : Context) :
    ∃ q, Verdict h l c q := by
  cases waits : c.pending with
  | none => exact ⟨_, .pass waits⟩
  | some p =>
    by_cases name_eq : h.name = p.tag.name
    · rcases Block.types_known_or_not h.paramTypes with
        ⟨ts, known⟩ | ⟨before, t, after, ts, split, known, unknown⟩
      · cases ret_known : ZigType.read? h.retType with
        | none => exact ⟨_, .ret waits name_eq known ret_known⟩
        | some ret =>
          by_cases arity_eq : (ZigType.splitEnv (c.params ++ ts)).2.length = p.tag.arity
          · exact ⟨_, .declare waits name_eq known ret_known rfl arity_eq rfl⟩
          · exact ⟨_, .arity waits name_eq known ret_known rfl arity_eq⟩
      · exact ⟨_, .param waits name_eq split known unknown⟩
    · exact ⟨_, .stray waits name_eq⟩

theorem takeHeader_eq_iff (h : Line.Header) (l : SourceLine) (c : Context) (q : Progress) :
    c.takeHeader h l = q ↔ Verdict h l c q := by
  constructor
  · rintro rfl
    obtain ⟨q, verdict⟩ := exists_verdict h l c
    rwa [takeHeader_of_verdict h l c q verdict]
  · exact takeHeader_of_verdict h l c q

end AnnotatedZig.Context
