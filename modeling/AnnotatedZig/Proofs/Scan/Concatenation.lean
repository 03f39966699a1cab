import AnnotatedZig.Proofs.Location
import AnnotatedZig.Proofs.Scan.Effect

/-!
# Sources put together

A line that is no documentation ends a block and leaves nothing of it behind. So a source that ends
with such a line can be put in front of any other, and is scanned as if it stood alone; the other is
scanned as if it stood alone too, only further down. The end of a scan leaves nothing behind either.
-/

set_option autoImplicit false

namespace AnnotatedZig

namespace Context

theorem step_file (l : SourceLine) (c : Context) : (c.step l).context.file = c.file := by
  have effect := effect_step l c
  generalize c.step l = p at effect
  cases effect <;> rfl

theorem steps_file (ls : List SourceLine) (c : Context) : (steps ls c).context.file = c.file := by
  induction ls generalizing c with
  | nil => rfl
  | cons l ls ih =>
    rw [steps]
    cases h : (c.step l).failure with
    | some f => rw [Progress.andThen_of_failure _ _ f h, step_file]
    | none => rw [Progress.andThen_context _ _ h, ih, step_file]

theorem step_code (l : SourceLine) (c : Context) (code : l.isDoc = false)
    (h : (c.step l).failure = none) : (c.step l).context = { file := c.file } := by
  have effect := effect_step l c
  generalize c.step l = p at effect h
  cases effect with
  | remark doc _ => simp [doc] at code
  | tag is_tag => simp [l.isDoc_of_isTag is_tag] at code
  | declare => rfl
  | pass => rfl
  | refuse f => simp [Progress.fail] at h
  | reject f => simp [Progress.fail] at h

theorem steps_concat (ls : List SourceLine) (l : SourceLine) (c : Context) :
    steps (ls ++ [l]) c = (steps ls c).andThen (step l) := by
  have hone : steps [l] = step l := by
    funext d
    exact Progress.andThen_nothing (d.step l)
  rw [steps_append, hone]

theorem steps_closed (ls : List SourceLine) (file : String)
    (hlast : ∀ l, ls.getLast? = some l → l.isDoc = false)
    (h : (steps ls { file := file }).failure = none) :
    (steps ls { file := file }).context = { file := file } := by
  rcases List.eq_nil_or_concat' ls with rfl | ⟨init, l, rfl⟩
  · rfl
  · -- The lines above may leave any block open, for the last one ends it.
    have hl : l.isDoc = false := hlast l (by simp)
    rw [steps_concat] at h ⊢
    obtain ⟨hinit, hstep⟩ := (Progress.andThen_none_iff _ _).mp h
    rw [Progress.andThen_context _ _ hinit, step_code l _ hl hstep, steps_file]

theorem finish_context (c : Context) (h : c.finish.failure = none) :
    c.finish.context = { file := c.file } := by
  cases hc : c.pending with
  | some p =>
    rw [finish_waits c p hc] at h
    simp [Progress.fail] at h
  | none => rw [finish_free c hc, reset]

/-- A scan that comes to its end leaves nothing behind, whatever context it began with. -/
theorem scan_context (c : Context) (code : Text) (start : Int)
    (h : (c.scan code start).failure = none) : (c.scan code start).context = { file := c.file } := by
  rw [scan] at h ⊢
  obtain ⟨hs, hfinish⟩ := (Progress.andThen_none_iff _ _).mp h
  rw [Progress.andThen_context _ _ hs, finish_context _ hfinish, steps_file]

end Context

namespace Block

/-- A source that ends where a block does: it is empty, or its last line has a line feed and is no
documentation line. -/
def Closes (code : Text) : Prop :=
  code = [] ∨ Text.Ended code ∧ ∀ t, (Text.splitLines code).getLast? = some t → Line.isDoc t = false

theorem closed_of_closes (code : Text) (h : Closes code) : Text.Closed code := by
  rcases h with h | ⟨h, -⟩
  · exact .inl h
  · exact .inr h

theorem last_of_closes (code : Text) (file : String) (start : Int) (h : Closes code) :
    ∀ l, (SourceLine.ofCode code file start).getLast? = some l → l.isDoc = false := by
  intro l hl
  have htext : (Text.splitLines code).getLast? = some l.text := by
    rw [← SourceLine.map_text_ofCode code file start, List.getLast?_map, hl]
    rfl
  rcases h with rfl | ⟨-, hdoc⟩
  · simp [Text.splitLines_nil] at htext
  · exact hdoc l.text htext

end Block

theorem scanCode_append (code more : Text) (file : String) (line : Int) (h : Block.Closes code) :
    scanCode (code ++ more) file line =
      (scanCode code file line).andThen fun _ => scanCode more file (line + code.count '\n') := by
  have hclosed := Block.closed_of_closes code h
  have hlast := Block.last_of_closes code file line h
  have hfinish (q : Progress) : (Context.finish { file := file }).andThen (fun _ => q) = q := by
    rw [Context.finish_free _ rfl, Progress.andThen_of_none _ _ rfl]
    simp
  simp only [scanCode, Context.scan]
  rw [SourceLine.ofCode_append code more file line hclosed, Context.steps_append,
    Progress.andThen_assoc, Progress.andThen_assoc]
  cases hs : (Context.steps (SourceLine.ofCode code file line) { file := file }).failure with
  | some f => rw [Progress.andThen_of_failure _ _ f hs, Progress.andThen_of_failure _ _ f hs]
  | none =>
    rw [Progress.andThen_of_none _ _ hs, Progress.andThen_of_none _ _ hs,
      Context.steps_closed _ file hlast hs, hfinish]

/-- Extraction takes a source that closes its last block together with any source below it: it fails
as the first part does, or else as the second does from its place on; otherwise it gives the
declarations and the code of the first and then of the second, below one marker. A scan that comes
to its end leaves a fresh context to the next one, whatever context it began with. -/
theorem extract_append (code more : Text) (file : String) (line : Int) :
    (Block.Closes code →
      (∀ f, extract code file line = .error f → extract (code ++ more) file line = .error f) ∧
      ∀ o, extract code file line = .ok o →
        (∀ f, extract more file (line + code.count '\n') = .error f →
          extract (code ++ more) file line = .error f) ∧
        ∀ o', extract more file (line + code.count '\n') = .ok o' →
          ∃ body, o'.code = marker file (line + code.count '\n') ++ body ∧
            extract (code ++ more) file line =
              .ok ⟨o.code ++ body, o.declarations ++ o'.declarations⟩) ∧
    ∀ (c : Context) (text : Text) (start : Int), (c.scan text start).failure = none →
      (c.scan text start).context = { file := c.file } ∧
      ∀ text' start', (c.scan text start).context.scan text' start' =
        scanCode text' c.file start' := by
  constructor
  · intro h
    have happend := scanCode_append code more file line h
    constructor
    · intro f hf
      rw [extract_eq_error_iff] at hf ⊢
      rw [happend, Progress.andThen_of_failure _ _ f hf, hf]
    · intro o ho
      rw [extract_eq_ok_iff] at ho
      obtain ⟨hfirst, rfl⟩ := ho
      constructor
      · intro f hf
        rw [extract_eq_error_iff] at hf ⊢
        rw [happend, Progress.andThen_of_none _ _ hfirst, hf]
      · intro o' ho'
        rw [extract_eq_ok_iff] at ho'
        obtain ⟨hsecond, rfl⟩ := ho'
        refine ⟨_, rfl, ?_⟩
        rw [extract_eq_ok_iff, happend, Progress.andThen_failure, hfirst, hsecond,
          Progress.texts_andThen _ _ hfirst, Progress.declarations_andThen _ _ hfirst,
          List.flatten_append, List.append_assoc]
        exact ⟨rfl, rfl⟩
  · intro c text start hscan
    have hcontext := c.scan_context text start hscan
    exact ⟨hcontext, fun text' start' => by rw [hcontext, scanCode]⟩

def closedSource : Text := "/// a\n/// nif: f/0 long\nfn f() void \x7b\n\x7d\n".toList

def nextSource : Text := "/// b\n/// nif: g/1\nfn g(x: i64) i32 \x7b".toList

def leftContext : Context :=
  { file := "a.zig", pending := some ⟨⟨['f'], 1, []⟩, "a.zig", 2⟩, params := [.scalar .i64] }

theorem extract_append_two :
    Block.Closes closedSource ∧
    (∃ o o', extract closedSource "a.zig" 7 = .ok o ∧ extract nextSource "a.zig" 11 = .ok o' ∧
      o.declarations.length = 1 ∧ o'.declarations.length = 1 ∧
      ∃ body, o'.code = marker "a.zig" 11 ++ body ∧
        extract (closedSource ++ nextSource) "a.zig" 7 =
          .ok ⟨o.code ++ body, o.declarations ++ o'.declarations⟩) ∧
    (leftContext.scan "fn f() void \x7b".toList 4).context = { file := "a.zig" } := by
  have hcloses : Block.Closes closedSource := by
    refine .inr ⟨rfl, ?_⟩
    intro t ht
    have hlast : (Text.splitLines closedSource).getLast? = some ['\x7d', '\n'] := by rfl
    obtain rfl : ['\x7d', '\n'] = t := Option.some.inj (hlast.symm.trans ht)
    rfl
  have hfirst : extract closedSource "a.zig" 7 =
      .ok ⟨marker "a.zig" 7 ++ "fn f() void \x7b\n\x7d\n".toList,
        [{ name := ['f'], arity := 0, params := [], ret := .scalar .void, doc := some ['a']
           options := [.long], env := none, loc := some ⟨"a.zig", 9⟩ }]⟩ := by
    rfl
  have hsecond : extract nextSource "a.zig" 11 =
      .ok ⟨marker "a.zig" 11 ++ "fn g(x: i64) i32 \x7b".toList,
        [{ name := ['g'], arity := 1, params := [.scalar .i64], ret := .scalar .i32
           doc := some ['b'], options := [], env := none, loc := some ⟨"a.zig", 13⟩ }]⟩ := by
    rfl
  have hplace : (7 : Int) + closedSource.count '\n' = 11 := by rfl
  have hends : (leftContext.scan "fn f() void \x7b".toList 4).failure = none := by rfl
  obtain ⟨htogether, hfresh⟩ := extract_append closedSource nextSource "a.zig" 7
  have happend := (htogether hcloses).2 _ hfirst
  rw [hplace] at happend
  exact ⟨hcloses, ⟨_, _, hfirst, hsecond, rfl, rfl, happend.2 _ hsecond⟩, (hfresh _ _ _ hends).1⟩

end AnnotatedZig
