import AnnotatedZig.Proofs.Scan.Concatenation
import AnnotatedZig.Proofs.Scan.Conservation
import Mathlib.Data.List.Nodup

/-!
# What a scan notes

A scan notes one line at most at a time, so its notes stand in the order of the lines. Between a tag
and the header that it waits for there is documentation only, of which nothing is noted; therefore
the note of a tag stands right before the note of its declaration, or it is the last of a scan that
fails while the tag waits. All other notes are of headers without a tag.
-/

set_option autoImplicit false

namespace AnnotatedZig

def SourceLine.heading? (l : SourceLine) : Option (Text × Location) :=
  l.header?.map fun h => (h.name, l.loc)

theorem SourceLine.heading_of_isDoc (l : SourceLine) (doc : l.isDoc = true) :
    l.heading? = none := by
  cases form : l.header? with
  | none => rw [heading?, form, Option.map_none]
  | some h => simp [l.isDoc_of_header h form] at doc

namespace Event

def heading? : Event → Option (Text × Location)
  | pending _ => none
  | declared d loc => some (d.name, loc)
  | passing name loc => some (name, loc)

def passing? : Event → Option (Text × Location)
  | passing name loc => some (name, loc)
  | _ => none

end Event

/-- Notes in which every tag is followed at once by the declaration that it announces. The
declarations are `ds`, noted where they stand. -/
inductive Bracketed : List Event → List Declaration → Prop
  | nil : Bracketed [] []
  | declared {p : Pending} {d : Declaration} {loc : Location} {es : List Event}
      {ds : List Declaration} (name_eq : d.name = p.tag.name) (arity_eq : d.arity = p.tag.arity)
      (place : d.loc = some loc) (rest : Bracketed es ds) :
      Bracketed (.pending p :: .declared d loc :: es) (d::ds)
  | passing {name : Text} {loc : Location} {es : List Event} {ds : List Declaration}
      (rest : Bracketed es ds) : Bracketed (.passing name loc :: es) ds

theorem bracketed_append (es fs : List Event) (ds ds' : List Declaration) (he : Bracketed es ds)
    (hf : Bracketed fs ds') : Bracketed (es ++ fs) (ds ++ ds') := by
  induction he with
  | nil => exact hf
  | declared name_eq arity_eq place _ ih => exact .declared name_eq arity_eq place ih
  | passing _ ih => exact .passing ih

theorem getLast_bracketed (es : List Event) (ds : List Declaration) (h : Bracketed es ds)
    (p : Pending) : es.getLast? ≠ some (.pending p) := by
  induction h with
  | nil => simp
  | @declared q d loc es ds _ _ _ _ ih =>
    cases es with
    | nil => simp
    | cons e es => simpa [List.getLast?_cons_cons] using ih
  | @passing name loc es ds _ ih =>
    cases es with
    | nil => simp
    | cons e es => simpa [List.getLast?_cons_cons] using ih

theorem declared_of_bracketed (es : List Event) (ds : List Declaration) (h : Bracketed es ds) :
    ∀ d loc, Event.declared d loc ∈ es → d ∈ ds ∧ d.loc = some loc := by
  induction h with
  | nil => simp
  | declared name_eq arity_eq place _ ih =>
    intro d' loc' hm
    simp only [List.mem_cons, reduceCtorEq, Event.declared.injEq, false_or] at hm
    rcases hm with ⟨rfl, rfl⟩ | hm
    · exact ⟨List.mem_cons_self, place⟩
    · obtain ⟨hd, hloc⟩ := ih d' loc' hm
      exact ⟨List.mem_cons_of_mem _ hd, hloc⟩
  | passing _ ih =>
    intro d loc hm
    exact ih d loc (by simpa using hm)

theorem mem_of_bracketed (es : List Event) (ds : List Declaration) (h : Bracketed es ds) :
    ∀ d ∈ ds, ∃ loc, d.loc = some loc ∧ Event.declared d loc ∈ es := by
  induction h with
  | nil => simp
  | declared name_eq arity_eq place _ ih =>
    rw [List.forall_mem_cons]
    refine ⟨⟨_, place, by simp⟩, fun d hd => ?_⟩
    obtain ⟨loc, hloc, hm⟩ := ih d hd
    exact ⟨loc, hloc, by simp [hm]⟩
  | passing _ ih =>
    intro d hd
    obtain ⟨loc, hloc, hm⟩ := ih d hd
    exact ⟨loc, hloc, List.mem_cons_of_mem _ hm⟩

namespace Progress

/-- With the tag that waited before put in front, the notes are bracketed up to the tag that waits
now. -/
def Brackets (before : Option Pending) (p : Progress) : Prop :=
  ∃ es, before.toList.map .pending ++ p.events = es ++ p.context.pending.toList.map .pending ∧
    Bracketed es p.declarations

theorem brackets_fail (c : Context) (f : Failure) : (fail c f).Brackets c.pending :=
  ⟨[], List.append_nil _, .nil⟩

theorem brackets_andThen (before : Option Pending) (p : Progress) (next : Context → Progress)
    (hp : p.Brackets before) (hn : (next p.context).Brackets p.context.pending) :
    (p.andThen next).Brackets before := by
  cases h : p.failure with
  | some f => rwa [andThen_of_failure p next f h]
  | none =>
    obtain ⟨es, hes, hfirst⟩ := hp
    obtain ⟨fs, hfs, hsecond⟩ := hn
    refine ⟨es ++ fs, ?_, ?_⟩
    · rw [andThen_of_none p next h, ← List.append_assoc, hes, List.append_assoc, hfs,
        List.append_assoc]
    · rw [declarations_andThen p next h]
      exact bracketed_append es fs _ _ hfirst hsecond

end Progress

namespace Context

theorem declarations_passed (held : List SourceLine) (t : Text) :
    (held.map (fun m => .text m.text) ++ [.text t] : List Item).filterMap Item.declaration? = [] := by
  rw [List.filterMap_append, declarations_texts]
  rfl

theorem bracketed_passing (l : SourceLine) : Bracketed l.passing [] := by
  rw [SourceLine.passing]
  cases l.header? with
  | none => exact .nil
  | some h => exact .passing .nil

theorem brackets_step (l : SourceLine) (c : Context) : (c.step l).Brackets c.pending := by
  have effect := effect_step l c
  generalize c.step l = p at effect
  cases effect with
  | remark => exact ⟨[], List.append_nil _, .nil⟩
  | tag is_tag free => exact ⟨[], by simp [free, hold], .nil⟩
  | @declare p h ts ret d waits form name_eq known ret_known arity_eq made =>
    subst made
    refine ⟨[.pending p, .declared (c.declaration p (c.params ++ ts) ret l) l.loc], ?_, ?_⟩
    · simp [waits, reset]
    · exact .declared rfl rfl rfl .nil
  | pass code free =>
    refine ⟨l.passing, by simp [free, reset], ?_⟩
    rw [Progress.declarations, declarations_passed]
    exact bracketed_passing l
  | refuse f => exact Progress.brackets_fail c f
  | @reject p h before after ts ret f waits => exact Progress.brackets_fail _ f

theorem brackets_finish (c : Context) : c.finish.Brackets c.pending := by
  cases hc : c.pending with
  | some p =>
    rw [finish_waits c p hc, ← hc]
    exact Progress.brackets_fail c _
  | none =>
    rw [finish_free c hc]
    refine ⟨[], by simp [reset], ?_⟩
    rw [Progress.declarations, declarations_texts]
    exact .nil

theorem brackets_steps (ls : List SourceLine) (c : Context) : (steps ls c).Brackets c.pending := by
  induction ls generalizing c with
  | nil => exact ⟨[], List.append_nil _, .nil⟩
  | cons l ls ih => exact Progress.brackets_andThen _ _ _ (brackets_step l c) (ih _)

theorem events_step (l : SourceLine) (c : Context) :
    ((c.step l).events.map Event.loc).Sublist [l.loc] := by
  have effect := effect_step l c
  generalize c.step l = p at effect
  cases effect with
  | tag is_tag free form length read =>
    subst read
    exact .refl _
  | declare => exact .refl _
  | pass =>
    rw [SourceLine.passing]
    cases l.header? with
    | none => exact List.nil_sublist _
    | some h => exact .refl _
  | _ => exact List.nil_sublist _

theorem events_finish (c : Context) : c.finish.events = [] := by
  cases hc : c.pending with
  | some p => rw [finish_waits c p hc, Progress.fail]
  | none => rw [finish_free c hc]

theorem events_steps (ls : List SourceLine) (c : Context) :
    ((steps ls c).events.map Event.loc).Sublist (ls.map SourceLine.loc) := by
  induction ls generalizing c with
  | nil => exact .slnil
  | cons l ls ih =>
    have hstep := events_step l c
    rw [steps, List.map_cons, ← List.singleton_append]
    cases h : (c.step l).failure with
    | some f =>
      rw [Progress.andThen_of_failure _ _ f h]
      exact hstep.trans (List.sublist_append_left _ _)
    | none =>
      rw [Progress.andThen_of_none _ _ h, List.map_append]
      exact hstep.append (ih _)

theorem headings_step (l : SourceLine) (c : Context) (h : (c.step l).failure = none) :
    (c.step l).events.filterMap Event.heading? = l.heading?.toList := by
  have effect := effect_step l c
  generalize c.step l = p at effect h
  cases effect with
  | remark doc => rw [l.heading_of_isDoc doc]; rfl
  | tag is_tag => rw [l.heading_of_isDoc (l.isDoc_of_isTag is_tag)]; rfl
  | declare waits form name_eq known ret_known arity_eq made =>
    subst made
    rw [SourceLine.heading?, form, Option.map_some, name_eq]
    rfl
  | pass =>
    rw [SourceLine.passing, SourceLine.heading?]
    cases l.header? <;> rfl
  | refuse f => simp [Progress.fail] at h
  | reject f => simp [Progress.fail] at h

theorem headings_steps (ls : List SourceLine) (c : Context) (h : (steps ls c).failure = none) :
    (steps ls c).events.filterMap Event.heading? = ls.filterMap SourceLine.heading? := by
  induction ls generalizing c with
  | nil => rfl
  | cons l ls ih =>
    rw [steps] at h ⊢
    obtain ⟨hstep, hrest⟩ := (Progress.andThen_none_iff _ _).mp h
    rw [Progress.andThen_of_none _ _ hstep, List.filterMap_append, headings_step l c hstep,
      ih _ hrest, List.filterMap_cons]
    cases l.heading? <;> rfl

end Context

theorem extractEvents_eq (code : Text) (file : String) (line : Int) :
    extractEvents code file line =
      (Context.steps (SourceLine.ofCode code file line) { file := file }).events := by
  rw [extractEvents, scanCode, Context.scan]
  cases h : (Context.steps (SourceLine.ofCode code file line) { file := file }).failure with
  | some f => rw [Progress.andThen_of_failure _ _ f h]
  | none => rw [Progress.andThen_of_none _ _ h, Context.events_finish, List.append_nil]

theorem brackets_scanCode (code : Text) (file : String) (line : Int) :
    (scanCode code file line).Brackets none :=
  Progress.brackets_andThen none _ _ (Context.brackets_steps _ { file := file })
    (Context.brackets_finish _)

theorem events_sublist (code : Text) (file : String) (line : Int) :
    ((extractEvents code file line).map Event.loc).Sublist
      ((SourceLine.ofCode code file line).map SourceLine.loc) := by
  rw [extractEvents_eq]
  exact Context.events_steps _ _

theorem increasing_events (code : Text) (file : String) (line : Int) :
    (extractEvents code file line).Pairwise fun e f => e.loc.line < f.loc.line := by
  have hlocs := (SourceLine.increasing_ofCode code file line).sublist (events_sublist code file line)
  rwa [List.pairwise_map] at hlocs

def undeclared (ds : List Declaration) (x : Text × Location) : Bool :=
  (ds.find? fun d => d.loc = some x.2).isNone

theorem SourceLine.heading_undeclared (ds : List Declaration) (l : SourceLine) :
    (if (l.declared ds).isNone then l.heading? else none) = l.heading?.filter (undeclared ds) := by
  cases form : l.header? with
  | none => simp [heading?, form]
  | some h => simp [heading?, form, undeclared, declared, Option.filter_some]

theorem Event.passing_undeclared (es : List Event) (ds : List Declaration)
    (hb : Bracketed es ds) (hnodup : (es.map Event.loc).Nodup) :
    ∀ e ∈ es, e.passing? = e.heading?.filter (undeclared ds) := by
  intro e he
  cases e with
  | pending p => rfl
  | declared d loc =>
    obtain ⟨hd, hloc⟩ := declared_of_bracketed es ds hb d loc he
    have hfound : undeclared ds (d.name, loc) = false := by
      simpa [undeclared] using ⟨d, hd, hloc⟩
    rw [heading?, Option.filter_some, hfound]
    rfl
  | passing name loc =>
    have hfree : undeclared ds (name, loc) = true := by
      rw [undeclared, Option.isNone_iff_eq_none, List.find?_eq_none]
      intro d hd hat
      obtain ⟨loc', hloc', hm⟩ := mem_of_bracketed es ds hb d hd
      obtain rfl : loc' = loc := by simpa [hloc'] using hat
      exact Event.noConfusion (List.inj_on_of_nodup_map hnodup hm he rfl)
    rw [heading?, Option.filter_some, hfree]
    rfl

theorem passing_headings (es : List Event) (ds : List Declaration) (ls : List SourceLine)
    (hb : Bracketed es ds) (hnodup : (es.map Event.loc).Nodup)
    (hh : es.filterMap Event.heading? = ls.filterMap SourceLine.heading?) :
    es.filterMap Event.passing? =
      (ls.filter fun l => (l.declared ds).isNone).filterMap SourceLine.heading? := calc
  es.filterMap Event.passing? = es.filterMap fun e => e.heading?.filter (undeclared ds) :=
      List.filterMap_congr (Event.passing_undeclared es ds hb hnodup)
  _ = (es.filterMap Event.heading?).filter (undeclared ds) := List.filter_filterMap.symm
  _ = (ls.filterMap SourceLine.heading?).filter (undeclared ds) := by rw [hh]
  _ = ls.filterMap fun l => l.heading?.filter (undeclared ds) := List.filter_filterMap
  _ = (ls.filter fun l => (l.declared ds).isNone).filterMap SourceLine.heading? := by
      rw [List.filterMap_filter]
      exact List.filterMap_congr fun l _ => (l.heading_undeclared ds).symm

/-- The notes of an extraction go down the lines. Each tag is noted right before the declaration that
it announces, except for a last tag that no header answers; and there is such a note exactly if a tag
waits where the scan stops. An extraction that does not fail notes the declarations that it gives, one
by one, and besides them each header at which none of them stands, as passed. -/
theorem extractEvents_bracketed (code : Text) (file : String) (line : Int) :
    (extractEvents code file line).Pairwise (fun e f => e.loc.line < f.loc.line) ∧
    (∃ es, extractEvents code file line =
        es ++ (scanCode code file line).context.pending.toList.map .pending ∧
      Bracketed es (scanCode code file line).declarations) ∧
    (∀ o, extract code file line = .ok o →
      Bracketed (extractEvents code file line) o.declarations ∧
      (extractEvents code file line).filterMap Event.passing? =
        ((SourceLine.ofCode code file line).filter fun l =>
          (l.declared o.declarations).isNone).filterMap SourceLine.heading?) ∧
    ∀ p, (extractEvents code file line).getLast? = some (.pending p) ↔
      (scanCode code file line).context.pending = some p := by
  have hlines := increasing_events code file line
  obtain ⟨es, hes, hb⟩ := brackets_scanCode code file line
  have hsplit : extractEvents code file line =
      es ++ (scanCode code file line).context.pending.toList.map .pending := hes
  refine ⟨hlines, ⟨es, hsplit, hb⟩, ?_, ?_⟩
  · intro o ho
    obtain ⟨hnone, rfl⟩ := (extract_eq_ok_iff code file line o).mp ho
    have hended : (scanCode code file line).context.pending = none := by
      rw [scanCode, Context.scan_context _ code line hnone]
    have hall : Bracketed (extractEvents code file line) (scanCode code file line).declarations := by
      rw [hsplit, hended]
      simpa using hb
    refine ⟨hall, passing_headings _ _ _ hall ?_ ?_⟩
    · exact (SourceLine.nodup_loc_ofCode code file line).sublist (events_sublist code file line)
    · rw [extractEvents_eq]
      exact Context.headings_steps _ _ ((Progress.andThen_none_iff _ _).mp hnone).1
  · intro p
    rw [hsplit]
    cases hp : (scanCode code file line).context.pending with
    | none => simpa using getLast_bracketed es _ hb p
    | some q => simp [eq_comm]

end AnnotatedZig
