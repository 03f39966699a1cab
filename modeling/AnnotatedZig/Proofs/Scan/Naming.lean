import AnnotatedZig.Proofs.Line.Layout
import AnnotatedZig.Proofs.Scan.Conservation

/-!
# Where declarations come from

A scan declares at a header that it comes to. The declaration bears the name of that header, which is
a proper one, and has the documentation that was read down to it.
-/

set_option autoImplicit false

namespace AnnotatedZig

theorem Line.isName_of_header (text : Text) (h : Line.Header) (form : header? text = some h) :
    IsName h.name := by
  obtain ⟨t, -, hread⟩ := Option.bind_eq_some_iff.mp form
  obtain ⟨l, -, -, rfl⟩ := (HeaderLayout.ofBody_eq_some_iff t h).mp hread
  exact l.is_name

namespace Context

theorem mem_declarations_steps (ls : List SourceLine) (c : Context) (d : Declaration)
    (hd : d ∈ (steps ls c).declarations) :
    ∃ above l below, ls = above ++ l::below ∧ (steps above c).failure = none ∧
      d ∈ ((steps above c).context.step l).declarations := by
  induction ls generalizing c with
  | nil => simp [steps, Progress.declarations] at hd
  | cons l ls ih =>
    rw [steps] at hd
    cases h : (c.step l).failure with
    | some f =>
      rw [Progress.andThen_of_failure _ _ f h] at hd
      exact ⟨[], l, ls, rfl, rfl, hd⟩
    | none =>
      rw [Progress.declarations_andThen _ _ h, List.mem_append] at hd
      rcases hd with hd | hd
      · exact ⟨[], l, ls, rfl, rfl, hd⟩
      · obtain ⟨above, m, below, rfl, hnone, hm⟩ := ih _ hd
        refine ⟨l::above, m, below, rfl, ?_, ?_⟩
        · rw [steps]
          exact (Progress.andThen_none_iff _ _).mpr ⟨h, hnone⟩
        · rwa [steps, Progress.andThen_context _ _ h]

theorem declarations_finish (c : Context) : c.finish.declarations = [] := by
  cases hc : c.pending with
  | some p =>
    rw [finish_waits c p hc]
    rfl
  | none =>
    rw [finish_free c hc]
    exact declarations_texts _

theorem declarations_scan (c : Context) (code : Text) (start : Int) :
    (c.scan code start).declarations =
      (steps (SourceLine.ofCode code c.file start) c).declarations := by
  rw [scan]
  cases h : (steps (SourceLine.ofCode code c.file start) c).failure with
  | some f => rw [Progress.andThen_of_failure _ _ f h]
  | none => rw [Progress.declarations_andThen _ _ h, declarations_finish, List.append_nil]

theorem declaration_of_effect (l : SourceLine) (c : Context) (p : Progress) (effect : Effect l c p)
    (d : Declaration) (hd : d ∈ p.declarations) :
    ∃ h, l.header? = some h ∧ h.name = d.name ∧ d.loc = some l.loc ∧ d.doc = c.doc := by
  cases effect with
  | @declare p h ts ret e waits form name_eq known ret_known arity_eq made =>
    obtain rfl : e = d := by
      simpa [Progress.declarations, Item.declaration?, eq_comm] using hd
    subst made
    exact ⟨h, form, name_eq, rfl, rfl⟩
  | pass => simp [Progress.declarations, Item.declaration?] at hd
  | _ => simp [Progress.declarations, Progress.fail] at hd

end Context

/-- Whatever is extracted was declared at a line that a scan came to. -/
theorem step_of_extract (code : Text) (file : String) (line : Int) (o : Outcome)
    (h : extract code file line = .ok o) (d : Declaration) (hd : d ∈ o.declarations) :
    ∃ (l : SourceLine) (c : Context), d ∈ (c.step l).declarations := by
  obtain ⟨-, rfl⟩ := (extract_eq_ok_iff code file line o).mp h
  rw [scanCode, Context.declarations_scan] at hd
  obtain ⟨above, l, -, -, -, hl⟩ := Context.mem_declarations_steps _ _ d hd
  exact ⟨l, _, hl⟩

theorem isName_extract (code : Text) (file : String) (line : Int) (o : Outcome)
    (h : extract code file line = .ok o) : ∀ d ∈ o.declarations, Line.IsName d.name := by
  intro d hd
  obtain ⟨l, c, hl⟩ := step_of_extract code file line o h d hd
  obtain ⟨x, form, name_eq, -⟩ :=
    Context.declaration_of_effect l c _ (Context.effect_step l c) d hl
  exact name_eq ▸ Line.isName_of_header _ x form

end AnnotatedZig
