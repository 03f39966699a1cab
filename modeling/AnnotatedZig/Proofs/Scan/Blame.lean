import AnnotatedZig.Proofs.Line.TagLayout
import AnnotatedZig.Proofs.Location
import AnnotatedZig.Proofs.Scan.Effect

/-!
# Where a scan stands

A scan fails at a line of its source: the one at hand, or that of the tag that waits, which is a line
of the source too. The one failure without a line is that of a tag with too many digits, and such a
tag is then among the lines. What is declared stands on a line of the source as well. So all numbers
that an extraction prints are those of its lines, and if they print, the extraction is delivered.
-/

set_option autoImplicit false

namespace AnnotatedZig

/-- One of the lines brings the failure about. -/
inductive Blamed (ls : List SourceLine) : Failure → Prop
  | defect {l : SourceLine} (d : Defect) (line : l ∈ ls) : Blamed ls (.defect d l.loc)
  | digits {l : SourceLine} {t : Line.Tag} (line : l ∈ ls) (form : l.tag? = some t)
      (long : Text.digitLimit < t.digits.length) : Blamed ls (.numeralTooLong t.digits.length)

theorem blamed_mono (ls ms : List SourceLine) (f : Failure) (h : Blamed ls f) (hsub : ls ⊆ ms) :
    Blamed ms f := by
  cases h with
  | defect d line => exact .defect d (hsub line)
  | digits line form long => exact .digits (hsub line) form long

theorem loc_of_blamed (ls : List SourceLine) (d : Defect) (loc : Location)
    (h : Blamed ls (.defect d loc)) : ∃ l ∈ ls, l.loc = loc := by
  cases h with
  | @defect l d line => exact ⟨l, line, rfl⟩

def Context.Rooted (ls : List SourceLine) (c : Context) : Prop :=
  ∀ p, c.pending = some p → Text.Prints p.tag.arity ∧ ∃ l ∈ ls, l.loc = p.loc

/-- The tag that waits now stands on one of the lines, one of them is to blame for a failure, and what
was declared stands on one of them. -/
structure Progress.Located (ls : List SourceLine) (p : Progress) : Prop where
  rooted : p.context.Rooted ls
  blamed : ∀ f, p.failure = some f → Blamed ls f
  declared : ∀ d ∈ p.declarations, Text.Prints d.arity ∧ ∃ l ∈ ls, d.loc = some l.loc

namespace Context

theorem rooted_free (ls : List SourceLine) (c : Context) (free : c.pending = none) :
    c.Rooted ls := by
  intro p waits
  simp [free] at waits

theorem blamed_missingHeader (ls : List SourceLine) (c : Context) (hc : c.Rooted ls) (p : Pending)
    (waits : c.pending = some p) : Blamed ls p.missingHeader := by
  obtain ⟨-, l, line, hloc⟩ := hc p waits
  rw [Pending.missingHeader, ← hloc]
  exact .defect _ line

theorem blamed_fault (ls : List SourceLine) (l : SourceLine) (c : Context) (line : l ∈ ls)
    (hc : c.Rooted ls) (f : Failure) (fault : Fault l c f) : Blamed ls f := by
  cases fault with
  | here d => exact .defect d line
  | lost waits => exact blamed_missingHeader ls c hc _ waits
  | digits form long => exact .digits line form long

theorem located_fail (ls : List SourceLine) (c : Context) (hc : c.Rooted ls) (f : Failure)
    (hf : Blamed ls f) : (Progress.fail c f).Located ls := by
  refine ⟨hc, fun g hg => ?_, by simp [Progress.declarations, Progress.fail]⟩
  obtain rfl : f = g := Option.some.inj hg
  exact hf

theorem located_step (ls : List SourceLine) (l : SourceLine) (c : Context) (line : l ∈ ls)
    (hc : c.Rooted ls) : (c.step l).Located ls := by
  have effect := effect_step l c
  generalize c.step l = p at effect
  cases effect with
  | remark => exact ⟨hc, by simp, by simp [Progress.declarations]⟩
  | tag is_tag free form length read =>
    subst read
    refine ⟨fun p waits => ?_, by simp, by simp [Progress.declarations]⟩
    obtain rfl := Option.some.inj waits
    exact ⟨Line.prints_arity _ _ form length, l, line, rfl⟩
  | @declare p h ts ret d waits form name_eq known ret_known arity_eq made =>
    refine ⟨rooted_free ls _ rfl, by simp, fun e he => ?_⟩
    obtain rfl : d = e := by simpa [Progress.declarations, Item.declaration?, eq_comm] using he
    subst made
    exact ⟨(hc p waits).1, l, line, rfl⟩
  | pass => exact ⟨rooted_free ls _ rfl, by simp, by simp [Progress.declarations, Item.declaration?]⟩
  | refuse f fault => exact located_fail ls c hc f (blamed_fault ls l c line hc f fault)
  | reject f waits form name_eq split known ret_eq fault =>
    apply located_fail ls _ _ f (blamed_fault ls l c line hc f fault)
    exact hc

theorem located_finish (ls : List SourceLine) (c : Context) (hc : c.Rooted ls) :
    c.finish.Located ls := by
  cases waits : c.pending with
  | some p =>
    rw [finish_waits c p waits]
    exact located_fail ls c hc _ (blamed_missingHeader ls c hc p waits)
  | none =>
    rw [finish_free c waits]
    exact ⟨rooted_free ls _ rfl, by simp, by simp [Progress.declarations, Item.declaration?]⟩

theorem located_andThen (ls : List SourceLine) (p : Progress) (next : Context → Progress)
    (hp : p.Located ls) (hn : (next p.context).Located ls) : (p.andThen next).Located ls := by
  cases h : p.failure with
  | some f => rwa [Progress.andThen_of_failure p next f h]
  | none =>
    refine ⟨?_, ?_, ?_⟩
    · rw [Progress.andThen_context p next h]
      exact hn.rooted
    · rw [Progress.andThen_of_none p next h]
      exact hn.blamed
    · rw [Progress.declarations_andThen p next h]
      intro d hd
      exact (List.mem_append.mp hd).elim (hp.declared d) (hn.declared d)

theorem located_steps (ls ms : List SourceLine) (c : Context) (hms : ms ⊆ ls) (hc : c.Rooted ls) :
    (steps ms c).Located ls := by
  -- `ls` stays the whole source: a tag that waits at a line below may stand on a line far above.
  induction ms generalizing c with
  | nil => exact ⟨hc, by simp [steps], by simp [steps, Progress.declarations]⟩
  | cons m ms ih =>
    obtain ⟨line, hms⟩ := List.cons_subset.mp hms
    have hstep := located_step ls m c line hc
    exact located_andThen ls _ _ hstep (ih _ hms hstep.rooted)

end Context

theorem located_scanCode (code : Text) (file : String) (line : Int) :
    (scanCode code file line).Located (SourceLine.ofCode code file line) := by
  let ls := SourceLine.ofCode code file line
  have hsteps := Context.located_steps ls ls { file := file } (List.Subset.refl ls)
    (Context.rooted_free ls _ rfl)
  exact Context.located_andThen ls _ _ hsteps (Context.located_finish ls _ hsteps.rooted)

/-- A line of the source, in its file. -/
def Within (code : Text) (file : String) (line : Int) (loc : Location) : Prop :=
  ∃ n, loc = ⟨file, n⟩ ∧ line ≤ n ∧ n < line + (Text.splitLines code).length

/-- A tag among the lines of the source has `n` digits, which are too many. -/
def Overlong (code : Text) (file : String) (line : Int) (n : Nat) : Prop :=
  ∃ l ∈ SourceLine.ofCode code file line, ∃ t, l.tag? = some t ∧ Text.digitLimit < t.digits.length ∧
    n = t.digits.length

theorem within_of_mem (code : Text) (file : String) (line : Int) (l : SourceLine)
    (h : l ∈ SourceLine.ofCode code file line) : Within code file line l.loc := by
  have hfile := SourceLine.file_of_mem_ofCode code file line l h
  exact ⟨l.loc.line, by rw [← hfile], SourceLine.le_line_of_mem_number file line _ l h,
    SourceLine.line_lt_of_mem_number file line _ l h⟩

theorem failure_cases (code : Text) (file : String) (line : Int) (f : Failure)
    (h : extract code file line = .error f) :
    (∃ d loc, f = .defect d loc ∧ Within code file line loc) ∨
      ∃ n, f = .numeralTooLong n ∧ Overlong code file line n := by
  cases (located_scanCode code file line).blamed f ((extract_eq_error_iff ..).mp h) with
  | @defect l d hl => exact .inl ⟨d, l.loc, rfl, within_of_mem code file line l hl⟩
  | @digits l t hl form long => exact .inr ⟨_, rfl, l, hl, t, form, long, rfl⟩

theorem defect_loc (code : Text) (file : String) (line : Int) (d : Defect) (loc : Location)
    (h : (scanCode code file line).failure = some (.defect d loc)) : loc.file = file := by
  cases (located_scanCode code file line).blamed _ h with
  | @defect l d hl => exact SourceLine.file_of_mem_ofCode code file line l hl

theorem declared_within (code : Text) (file : String) (line : Int) (o : Outcome)
    (h : extract code file line = .ok o) :
    ∀ d ∈ o.declarations, Text.Prints d.arity ∧ ∃ loc, d.loc = some loc ∧ Within code file line loc := by
  obtain ⟨-, rfl⟩ := (extract_eq_ok_iff code file line o).mp h
  intro d hd
  obtain ⟨harity, l, hl, hloc⟩ := (located_scanCode code file line).declared d hd
  exact ⟨harity, l.loc, hloc, within_of_mem code file line l hl⟩

def Failure.told : Failure → Raised
  | defect d loc => .located (d.error loc)
  | numeralTooLong n => .number (.unreadable n)

/-- An extraction is delivered as it is if the numbers of its lines can be printed. -/
theorem deliver_eq_extract (code : Text) (file : String) (line : Int) (h : Text.Prints line)
    (hlines : ∀ loc, Within code file line loc → Text.Prints loc.line) :
    deliver code file line = (extract code file line).mapError Failure.told := by
  rw [deliver_prints code file line h]
  cases hx : extract code file line with
  | ok o => rfl
  | error f =>
    show Except.error f.raised = Except.error f.told
    rcases failure_cases code file line f hx with ⟨d, loc, rfl, within⟩ | ⟨n, rfl, -⟩
    · rw [Failure.raised_defect, if_pos (hlines loc within), Failure.told]
    · rfl

theorem raised_cases (code : Text) (file : String) (line : Int) (x : Raised)
    (h : deliver code file line = .error x) :
    (∃ (d : Defect) (n : Int), x = .located (d.error ⟨file, n⟩) ∧ Within code file line ⟨file, n⟩ ∧
        Text.Prints n) ∨
      (∃ n, x = .number (.unreadable n) ∧ Overlong code file line n) ∨
      x = .number .unprintable ∧ (¬ Text.Prints line ∨
        ∃ loc, Within code file line loc ∧ ¬ Text.Prints loc.line) := by
  rcases (deliver_eq_error_iff code file line x).mp h with ⟨hstart, rfl⟩ | ⟨-, f, hf, rfl⟩
  · exact .inr (.inr ⟨rfl, .inl hstart⟩)
  · rcases failure_cases code file line f hf with ⟨d, loc, rfl, within⟩ | ⟨n, rfl, long⟩
    · rw [Failure.raised_defect]
      by_cases hloc : Text.Prints loc.line
      · obtain ⟨n, rfl, bounds⟩ := within
        exact .inl ⟨d, n, if_pos hloc, ⟨n, rfl, bounds⟩, hloc⟩
      · exact .inr (.inr ⟨if_neg hloc, .inr ⟨loc, within, hloc⟩⟩)
    · exact .inr (.inl ⟨n, rfl, long⟩)

end AnnotatedZig
