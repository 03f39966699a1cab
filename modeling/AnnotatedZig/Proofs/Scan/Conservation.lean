import AnnotatedZig.Proofs.Location
import AnnotatedZig.Proofs.Scan.Effect

/-!
# No line is lost

At any time, also when it has failed, a scan has given out the lines that it took, or still holds
them, in their order; each line once. The only lines that are missing document a declaration that
was given out: they are the documentation right above its header. A line that fails leaves no trace.
-/

set_option autoImplicit false

namespace AnnotatedZig

namespace SourceLine

def declared (ds : List Declaration) (l : SourceLine) : Option Declaration :=
  ds.find? fun d => d.loc = some l.loc

/-- The lines without those that document a declaration. These are the documentation lines for which
the first line below that is no documentation is the header of the declaration. -/
def undocumented (ds : List Declaration) : List SourceLine → List SourceLine
  | [] => []
  | l::ls =>
    if l.isDoc && (ls.find? fun m => !m.isDoc).any fun m => (m.declared ds).isSome then
      undocumented ds ls
    else l :: undocumented ds ls

def items (ds : List Declaration) (l : SourceLine) : List Item :=
  .text l.text :: (l.declared ds).toList.map .declaration

/-- What is given out of the lines `ls` if these are the declarations. -/
def given (ds : List Declaration) (ls : List SourceLine) : List Item :=
  (undocumented ds ls).flatMap (items ds)

theorem find_code (docs rest : List SourceLine) (l : SourceLine)
    (hdocs : ∀ m ∈ docs, m.isDoc = true) (code : l.isDoc = false) :
    ((docs ++ l::rest).find? fun m => !m.isDoc) = some l := by
  have hnone : (docs.find? fun m => !m.isDoc) = none := by simpa using hdocs
  rw [List.find?_append, hnone, List.find?_cons_of_pos (by simp [code])]
  rfl

theorem undocumented_block (ds : List Declaration) (docs rest : List SourceLine) (l : SourceLine)
    (hdocs : ∀ m ∈ docs, m.isDoc = true) (code : l.isDoc = false) :
    undocumented ds (docs ++ l::rest) =
      (if (l.declared ds).isSome then [] else docs) ++ l :: undocumented ds rest := by
  induction docs with
  | nil => simp [undocumented, code]
  | cons m docs ih =>
    rw [List.forall_mem_cons] at hdocs
    rw [List.cons_append, undocumented, find_code docs rest l hdocs.2 code, ih hdocs.2]
    cases h : l.declared ds <;> simp [h, hdocs.1]

theorem undocumented_subset (ds : List Declaration) (ls : List SourceLine) :
    undocumented ds ls ⊆ ls := by
  induction ls with
  | nil => simp [undocumented]
  | cons l ls ih =>
    rw [undocumented]
    split
    · exact List.subset_cons_of_subset l ih
    · exact List.cons_subset_cons l ih

theorem undocumented_congr (ds es : List Declaration) (ls : List SourceLine)
    (h : ∀ l ∈ ls, l.declared ds = l.declared es) : undocumented ds ls = undocumented es ls := by
  induction ls with
  | nil => rfl
  | cons l ls ih =>
    rw [List.forall_mem_cons] at h
    have hfind : ((ls.find? fun m => !m.isDoc).any fun m => (m.declared ds).isSome) =
        (ls.find? fun m => !m.isDoc).any fun m => (m.declared es).isSome := by
      cases hm : ls.find? fun m => !m.isDoc with
      | none => rfl
      | some m => simp [h.2 m (List.mem_of_find?_eq_some hm)]
    rw [undocumented, undocumented, hfind, ih h.2]

theorem given_congr (ds es : List Declaration) (ls : List SourceLine)
    (h : ∀ l ∈ ls, l.declared ds = l.declared es) : given ds ls = given es ls := by
  rw [given, given, undocumented_congr ds es ls h]
  apply List.flatMap_congr
  intro l hl
  rw [items, items, h l (undocumented_subset es ls hl)]

theorem items_undeclared (ds : List Declaration) (ls : List SourceLine)
    (h : ∀ l ∈ ls, l.declared ds = none) : ls.flatMap (items ds) = ls.map fun l => .text l.text := by
  rw [← List.flatMap_pure_eq_map]
  apply List.flatMap_congr
  intro l hl
  rw [items, h l hl]
  rfl

theorem given_docs (ds : List Declaration) (docs : List SourceLine)
    (hdocs : ∀ m ∈ docs, m.isDoc = true) (h : ∀ m ∈ docs, m.declared ds = none) :
    given ds docs = docs.map fun m => .text m.text := by
  have hlines : undocumented ds docs = docs := by
    induction docs with
    | nil => rfl
    | cons m docs ih =>
      rw [List.forall_mem_cons] at hdocs h
      have hnone : (docs.find? fun m => !m.isDoc) = none := by simpa using hdocs.2
      simp [undocumented, hnone, ih hdocs.2 h.2]
  rw [given, hlines, items_undeclared ds docs h]

theorem given_pass (ds : List Declaration) (docs rest : List SourceLine) (l : SourceLine)
    (hdocs : ∀ m ∈ docs, m.isDoc = true) (code : l.isDoc = false)
    (h : ∀ m ∈ docs ++ [l], m.declared ds = none) :
    given ds (docs ++ l::rest) =
      docs.map (fun m => .text m.text) ++ [.text l.text] ++ given ds rest := by
  rw [List.forall_mem_append, List.forall_mem_singleton] at h
  rw [given, undocumented_block ds docs rest l hdocs code, h.2, List.flatMap_append,
    List.flatMap_cons, Option.isSome_none, if_neg (by simp), items_undeclared ds docs h.1, items, h.2,
    ← given]
  simp

theorem given_declare (ds : List Declaration) (docs rest : List SourceLine) (l : SourceLine)
    (d : Declaration) (hdocs : ∀ m ∈ docs, m.isDoc = true) (code : l.isDoc = false)
    (h : l.declared ds = some d) :
    given ds (docs ++ l::rest) = .text l.text :: .declaration d :: given ds rest := by
  rw [given, undocumented_block ds docs rest l hdocs code, h, Option.isSome_some, if_pos rfl,
    List.nil_append, List.flatMap_cons, items, h, ← given]
  rfl

theorem given_texts (ds : List Declaration) (ls : List SourceLine) :
    (given ds ls).filterMap Item.text? = (undocumented ds ls).map text := by
  rw [given, List.filterMap_flatMap, ← List.flatMap_pure_eq_map]
  apply List.flatMap_congr
  intro l _
  cases h : l.declared ds <;> simp [items, h, Item.text?]

end SourceLine

namespace Context

/-- The lines that a scan takes: all of them, or those above the first that fails. -/
def taken : List SourceLine → Context → List SourceLine
  | [], _ => []
  | l::ls, c => if (c.step l).failure = none then l :: taken ls (c.step l).context else []

theorem taken_of_none (l : SourceLine) (ls : List SourceLine) (c : Context)
    (h : (c.step l).failure = none) : taken (l::ls) c = l :: taken ls (c.step l).context := by
  rw [taken, if_pos h]

theorem taken_of_failure (l : SourceLine) (ls : List SourceLine) (c : Context) (f : Failure)
    (h : (c.step l).failure = some f) : taken (l::ls) c = [] := by
  rw [taken, if_neg (by simp [h])]

theorem taken_append (ls : List SourceLine) (c : Context) :
    ∃ rest, ls = taken ls c ++ rest ∧ (steps (taken ls c) c).failure = none ∧
      (rest = [] ∧ (steps ls c).failure = none ∨ ∃ l below f, rest = l::below ∧
        ((steps (taken ls c) c).context.step l).failure = some f ∧
        (steps ls c).failure = some f) := by
  induction ls generalizing c with
  | nil => exact ⟨[], rfl, rfl, .inl ⟨rfl, rfl⟩⟩
  | cons l ls ih =>
    cases h : (c.step l).failure with
    | some f =>
      rw [taken_of_failure l ls c f h]
      refine ⟨l::ls, rfl, rfl, .inr ⟨l, ls, f, rfl, h, ?_⟩⟩
      rw [steps, Progress.andThen_of_failure _ _ f h, h]
    | none =>
      obtain ⟨rest, hls, hnone, hrest⟩ := ih (c.step l).context
      rw [taken_of_none l ls c h]
      refine ⟨rest, by rw [List.cons_append, ← hls], ?_, ?_⟩
      · rwa [steps, Progress.andThen_of_none _ _ h]
      · simpa [steps, Progress.andThen_of_none _ _ h] using hrest

def Headed (ls : List SourceLine) (ds : List Declaration) : Prop :=
  ∀ d ∈ ds, ∃ l ∈ ls, d.loc = some l.loc ∧ ∃ h, l.header? = some h ∧ h.name = d.name

theorem headed_cons (l : SourceLine) (ls : List SourceLine) (ds : List Declaration)
    (h : Headed ls ds) : Headed (l::ls) ds := by
  intro d hd
  obtain ⟨m, hm, hheader⟩ := h d hd
  exact ⟨m, List.mem_cons_of_mem l hm, hheader⟩

/-- With `held` held before and `kept` after it, a scan of the lines `done` gives out `is`. -/
structure Accounts (held done : List SourceLine) (is : List Item) (kept : List SourceLine) :
    Prop where
  items_eq : is ++ kept.map (fun l => .text l.text) =
    SourceLine.given (is.filterMap Item.declaration?) (held ++ done)
  headed : Headed done (is.filterMap Item.declaration?)

theorem declared_eq_none (held done kept : List SourceLine) (is : List Item) (l : SourceLine)
    (ha : Accounts held done is kept) (hl : l.loc ∉ done.map SourceLine.loc) :
    l.declared (is.filterMap Item.declaration?) = none := by
  rw [SourceLine.declared, List.find?_eq_none]
  intro d hd hloc
  obtain ⟨m, hm, hmloc, -⟩ := ha.headed d hd
  have heq : m.loc = l.loc := by simpa [hmloc] using hloc
  exact hl (heq ▸ List.mem_map_of_mem hm)

theorem texts_texts (ls : List SourceLine) :
    (ls.map fun l => Item.text l.text).filterMap Item.text? = ls.map SourceLine.text := by
  rw [List.filterMap_map]
  exact congrFun List.filterMap_eq_map ls

theorem declarations_texts (ls : List SourceLine) :
    (ls.map fun l => Item.text l.text).filterMap Item.declaration? = [] := by
  simp [List.filterMap_map, Function.comp_def, Item.declaration?]

theorem accounts_end (held kept : List SourceLine) (is : List Item)
    (hdocs : ∀ m ∈ held, m.isDoc = true)
    (h : is ++ kept.map (fun l => .text l.text) = held.map fun l => .text l.text)
    (hdecl : is.filterMap Item.declaration? = []) : Accounts held [] is kept where
  items_eq := by
    rw [h, hdecl, List.append_nil, SourceLine.given_docs [] held hdocs (fun _ _ => rfl)]
  headed := by simp [Headed, hdecl]

theorem accounts_hold (held done kept : List SourceLine) (is : List Item) (l : SourceLine)
    (ha : Accounts (held ++ [l]) done is kept) : Accounts held (l::done) is kept where
  items_eq := by rw [ha.items_eq, List.append_assoc, List.singleton_append]
  headed := headed_cons l done _ ha.headed

theorem accounts_pass (held done kept : List SourceLine) (is : List Item) (l : SourceLine)
    (ha : Accounts [] done is kept) (hdocs : ∀ m ∈ held, m.isDoc = true) (code : l.isDoc = false)
    (hdistinct : ∀ m ∈ held ++ [l], m.loc ∉ done.map SourceLine.loc) :
    Accounts held (l::done) (held.map (fun m => .text m.text) ++ [.text l.text] ++ is) kept := by
  have hdecl : (held.map (fun m => .text m.text) ++ [.text l.text] ++ is : List Item).filterMap
      Item.declaration? = is.filterMap Item.declaration? := by
    rw [List.filterMap_append, List.filterMap_append, declarations_texts]
    rfl
  have hnone : ∀ m ∈ held ++ [l], m.declared (is.filterMap Item.declaration?) = none :=
    fun m hm => declared_eq_none [] done kept is m ha (hdistinct m hm)
  constructor
  · rw [hdecl, SourceLine.given_pass _ held done l hdocs code hnone, List.append_assoc, ha.items_eq,
      List.nil_append]
  · rw [hdecl]
    exact headed_cons l done _ ha.headed

theorem accounts_declare (held done kept : List SourceLine) (is : List Item) (l : SourceLine)
    (d : Declaration) (h : Line.Header) (ha : Accounts [] done is kept)
    (hdocs : ∀ m ∈ held, m.isDoc = true) (form : l.header? = some h) (name_eq : h.name = d.name)
    (hloc : d.loc = some l.loc) (hdistinct : l.loc ∉ done.map SourceLine.loc) :
    Accounts held (l::done) (.text l.text :: .declaration d :: is) kept := by
  have hdecl : (.text l.text :: .declaration d :: is : List Item).filterMap Item.declaration? =
      d :: is.filterMap Item.declaration? := rfl
  have hl : l.declared (d :: is.filterMap Item.declaration?) = some d := by
    simp [SourceLine.declared, hloc]
  have hrest : ∀ m ∈ done, m.declared (is.filterMap Item.declaration?) =
      m.declared (d :: is.filterMap Item.declaration?) := by
    intro m hm
    have hne : l.loc ≠ m.loc := fun heq => hdistinct (heq ▸ List.mem_map_of_mem hm)
    simp [SourceLine.declared, hloc, hne]
  constructor
  · rw [hdecl, SourceLine.given_declare _ held done l d hdocs (l.isDoc_of_header h form) hl,
      ← SourceLine.given_congr _ _ done hrest, List.cons_append, List.cons_append, ha.items_eq,
      List.nil_append]
  · rw [hdecl, Headed, List.forall_mem_cons]
    exact ⟨⟨l, List.mem_cons_self, hloc, h, form, name_eq⟩, headed_cons l done _ ha.headed⟩

theorem accounts_finish (c : Context) (hdocs : ∀ m ∈ c.held, m.isDoc = true) :
    Accounts c.held [] c.finish.items c.finish.context.held := by
  cases hc : c.pending with
  | some p =>
    rw [finish_waits c p hc]
    exact accounts_end c.held _ _ hdocs rfl rfl
  | none =>
    rw [finish_free c hc]
    exact accounts_end c.held _ _ hdocs (List.append_nil _) (declarations_texts c.held)

theorem step_failure (l : SourceLine) (c : Context) (f : Failure)
    (h : (c.step l).failure = some f) :
    (c.step l).items = [] ∧ (c.step l).context.held = c.held := by
  have effect := effect_step l c
  generalize c.step l = p at effect h
  cases effect with
  | refuse f => exact ⟨rfl, rfl⟩
  | reject f => exact ⟨rfl, rfl⟩
  | _ => simp at h

theorem step_given (l : SourceLine) (c : Context) (h : (c.step l).failure = none) :
    (l.isDoc = true ∧ (c.step l).items = [] ∧ (c.step l).context.held = c.held ++ [l]) ∨
    (∃ d f, l.header? = some f ∧ f.name = d.name ∧ d.loc = some l.loc ∧
      (c.step l).items = [.text l.text, .declaration d] ∧ (c.step l).context.held = []) ∨
    (l.isDoc = false ∧ (c.step l).items = c.held.map (fun m => .text m.text) ++ [.text l.text] ∧
      (c.step l).context.held = []) := by
  have effect := effect_step l c
  generalize c.step l = p at effect h
  cases effect with
  | remark doc => exact .inl ⟨doc, rfl, rfl⟩
  | tag is_tag => exact .inl ⟨l.isDoc_of_isTag is_tag, rfl, rfl⟩
  | declare waits form name_eq known ret_known arity_eq made =>
    subst made
    exact .inr (.inl ⟨_, _, form, name_eq, rfl, rfl, rfl⟩)
  | pass code => exact .inr (.inr ⟨code, rfl, rfl⟩)
  | refuse f => simp [Progress.fail] at h
  | reject f => simp [Progress.fail] at h

theorem taken_subset (ls : List SourceLine) (c : Context) : taken ls c ⊆ ls := by
  obtain ⟨rest, hls, -⟩ := taken_append ls c
  intro l hl
  rw [hls]
  exact List.mem_append_left rest hl

theorem accounts_scan (ls : List SourceLine) (c : Context) (hdocs : ∀ m ∈ c.held, m.isDoc = true)
    (hdistinct : ((c.held ++ ls).map SourceLine.loc).Nodup) :
    Accounts c.held (taken ls c) ((steps ls c).andThen finish).items
      ((steps ls c).andThen finish).context.held := by
  induction ls generalizing c with
  | nil => simpa [steps, taken, Progress.andThen] using accounts_finish c hdocs
  | cons l ls ih =>
    rw [steps, Progress.andThen_assoc]
    cases h : (c.step l).failure with
    | some f =>
      obtain ⟨hitems, hheld⟩ := step_failure l c f h
      rw [taken_of_failure l ls c f h, Progress.andThen_of_failure _ _ f h, hitems, hheld]
      exact accounts_end c.held c.held [] hdocs rfl rfl
    | none =>
      have hsplit := hdistinct
      rw [List.append_cons, List.map_append] at hsplit
      obtain ⟨-, hls, hapart⟩ := List.nodup_append.mp hsplit
      -- No line below stands where these do, so no declaration from below is found at one of them.
      have hstray (d : Context) :
          ∀ m ∈ c.held ++ [l], m.loc ∉ (taken ls d).map SourceLine.loc := by
        intro m hm hmem
        have hbelow := List.map_subset SourceLine.loc (taken_subset ls d) hmem
        exact hapart m.loc (List.mem_map_of_mem hm) m.loc hbelow rfl
      have ha := ih (c.step l).context
      rw [taken_of_none l ls c h, Progress.andThen_items _ _ h, Progress.andThen_context _ _ h]
      rcases step_given l c h with ⟨doc, hitems, hheld⟩ | ⟨d, f, form, name_eq, hloc, hitems, hheld⟩ |
        ⟨code, hitems, hheld⟩
      · rw [hheld] at ha
        have hdocs' := List.forall_mem_append.mpr ⟨hdocs, List.forall_mem_singleton.mpr doc⟩
        rw [hitems]
        exact accounts_hold c.held _ _ _ l (ha hdocs' (by rwa [← List.append_cons]))
      · rw [hheld] at ha
        rw [hitems]
        exact accounts_declare c.held _ _ _ l d f (ha (by simp) hls) hdocs form name_eq hloc
          (hstray _ l (by simp))
      · rw [hheld] at ha
        rw [hitems]
        exact accounts_pass c.held _ _ _ l (ha (by simp) hls) hdocs code (hstray _)

end Context

/-- A scan from a fresh context takes the lines of its source from the top: all of them, unless one
fails, and then those above that one. Of these lines it has given out or still holds each, with its
text and in order, except the documentation right above the header of a declaration that it has
given out. Each declaration is given out right behind the text of its header. -/
theorem scan_conserves (code : Text) (file : String) (line : Int) :
    ∃ done rest, SourceLine.ofCode code file line = done ++ rest ∧
      Text.Splits ((done ++ rest).map SourceLine.text) code ∧
      (Context.steps done { file := file }).failure = none ∧
      (rest = [] ∨ ∃ l below f, rest = l::below ∧
        ((Context.steps done { file := file }).context.step l).failure = some f ∧
        (scanCode code file line).failure = some f) ∧
      (scanCode code file line).items ++
          (scanCode code file line).context.held.map (fun l => .text l.text) =
        SourceLine.given (scanCode code file line).declarations done ∧
      (scanCode code file line).texts ++ (scanCode code file line).context.held.map SourceLine.text =
        (SourceLine.undocumented (scanCode code file line).declarations done).map SourceLine.text ∧
      ∀ d ∈ (scanCode code file line).declarations, ∃ l ∈ done, d.loc = some l.loc ∧
        ∃ h, l.header? = some h ∧ h.name = d.name := by
  let ls := SourceLine.ofCode code file line
  have ha := Context.accounts_scan ls { file := file } (by simp)
    (SourceLine.nodup_loc_ofCode code file line)
  obtain ⟨rest, hls, hnone, hrest⟩ := Context.taken_append ls { file := file }
  have htexts := congrArg (List.filterMap Item.text?) ha.items_eq
  rw [List.filterMap_append, Context.texts_texts, SourceLine.given_texts, List.nil_append] at htexts
  refine ⟨Context.taken ls { file := file }, rest, hls, hls ▸ SourceLine.splits_ofCode code file line,
    hnone, ?_, ?_, ?_, ha.headed⟩
  · rcases hrest with ⟨hrest, -⟩ | ⟨l, below, f, hrest, hl, hf⟩
    · exact .inl hrest
    · refine .inr ⟨l, below, f, hrest, hl, ?_⟩
      rw [scanCode, Context.scan, Progress.andThen_of_failure _ _ f hf, hf]
  · exact ha.items_eq
  · exact htexts

end AnnotatedZig
