import AnnotatedZig.Proofs.Scan.Blame

/-!
# The place of a source

A scan carries the places of its lines along and never looks at them. So a source that stands
elsewhere, in another file or further down, is scanned in the same way, and all that changes are the
places in what the scan gives out, notes and fails with: they move with the source. Only a place whose
number has too many digits to be printed makes a difference, since it cannot be told.
-/

set_option autoImplicit false

namespace AnnotatedZig

structure Shift where
  file : String
  lines : Int

def Location.move (s : Shift) (l : Location) : Location := ⟨s.file, l.line + s.lines⟩

def SourceLine.move (s : Shift) (l : SourceLine) : SourceLine := { l with loc := l.loc.move s }

def Pending.move (s : Shift) (p : Pending) : Pending := { p with loc := p.loc.move s }

def Declaration.move (s : Shift) (d : Declaration) : Declaration :=
  { d with loc := d.loc.map (Location.move s) }

def Failure.move (s : Shift) : Failure → Failure
  | defect d loc => defect d (loc.move s)
  | numeralTooLong n => numeralTooLong n

def Item.move (s : Shift) : Item → Item
  | text t => text t
  | declaration d => declaration (d.move s)

def Event.move (s : Shift) : Event → Event
  | pending p => pending (p.move s)
  | declared d loc => declared (d.move s) (loc.move s)
  | passing name loc => passing name (loc.move s)

def Context.move (s : Shift) (c : Context) : Context :=
  { c with
    file := s.file, pending := c.pending.map (Pending.move s), held := c.held.map (SourceLine.move s) }

def Progress.move (s : Shift) (p : Progress) : Progress :=
  { context := p.context.move s, items := p.items.map (Item.move s)
    events := p.events.map (Event.move s), failure := p.failure.map (Failure.move s) }

theorem SourceLine.ofCode_move (s : Shift) (code : Text) (file : String) (start : Int) :
    ofCode code s.file (start + s.lines) = (ofCode code file start).map (move s) := by
  have hnumber (ts : List Text) (n : Int) :
      number s.file (n + s.lines) ts = (number file n ts).map (move s) := by
    induction ts generalizing n with
    | nil => rfl
    | cons t ts ih =>
      have hn : n + s.lines + 1 = n + 1 + s.lines := by omega
      rw [number, hn, ih, number, List.map_cons]
      rfl
  exact hnumber (Text.splitLines code) start

namespace Progress

theorem move_andThen (s : Shift) (p : Progress) (next next' : Context → Progress)
    (h : ∀ c, next' (c.move s) = (next c).move s) :
    (p.andThen next).move s = (p.move s).andThen next' := by
  cases hp : p.failure with
  | some f =>
    have hp' : (p.move s).failure = some (f.move s) := by simp [move, hp]
    rw [andThen_of_failure p next f hp, andThen_of_failure _ next' _ hp']
  | none =>
    have hp' : (p.move s).failure = none := by simp [move, hp]
    have hnext : next' (p.move s).context = (next p.context).move s := h p.context
    rw [andThen_of_none p next hp, andThen_of_none _ next' hp', hnext]
    simp [move]

theorem texts_move (s : Shift) (p : Progress) : (p.move s).texts = p.texts := by
  have hitem : Item.text? ∘ Item.move s = Item.text? := by
    funext i
    cases i <;> rfl
  rw [texts, texts, move, List.filterMap_map, hitem]

theorem declarations_move (s : Shift) (p : Progress) :
    (p.move s).declarations = p.declarations.map (Declaration.move s) := by
  rw [declarations, declarations, move, List.filterMap_map, List.map_filterMap]
  congr 1
  funext i
  cases i <;> rfl

end Progress

namespace Context

variable (s : Shift)

theorem pending_move (c : Context) : (c.move s).pending = c.pending.map (Pending.move s) := rfl

theorem move_takeTag (l : SourceLine) (c : Context) :
    (c.takeTag l).move s = (c.move s).takeTag (l.move s) := by
  have htext : (l.move s).text = l.text := rfl
  rw [takeTag, takeTag, htext, pending_move]
  cases Line.tag? (Text.terminated l.text) with
  | none => rfl
  | some t =>
    cases c.pending with
    | some p => rfl
    | none =>
      cases read : Tag.ofLine t with
      | error n => simp [read, Progress.fail, Progress.move, Failure.move]
      | ok tag => simp [read, move, Progress.move, hold, SourceLine.move, Event.move, Pending.move]

theorem move_takeDoc (l : SourceLine) (c : Context) :
    (c.takeDoc? l).map (Progress.move s) = (c.move s).takeDoc? (l.move s) := by
  rw [takeDoc?, takeDoc?, Option.map_map]
  congr 1
  funext text
  by_cases h : Line.isTagText text = true
  · simp [h, move_takeTag]
  · simp [h, takeDocText, Progress.move, move, hold]

theorem move_takeParams (texts : List Text) (c : Context) :
    takeParams texts (c.move s) =
      ((takeParams texts c).1.move s, (takeParams texts c).2) := by
  induction texts generalizing c with
  | nil => rfl
  | cons t texts ih =>
    cases h : ZigType.read? t with
    | none => simp [takeParams, h]
    | some u =>
      rw [takeParams, takeParams, h]
      exact ih { c with params := c.params ++ [u] }

theorem move_declare (p : Pending) (ret : ZigType) (l : SourceLine) (c : Context) :
    (c.declare p ret l).move s = (c.move s).declare (p.move s) ret (l.move s) := by
  have hparams : (c.move s).params = c.params := rfl
  have htag : (p.move s).tag = p.tag := rfl
  rw [declare, declare, hparams, htag]
  split
  · rfl
  · rfl

theorem move_takeTagged (p : Pending) (h : Line.Header) (l : SourceLine) (c : Context) :
    (c.takeTagged p h l).move s = (c.move s).takeTagged (p.move s) h (l.move s) := by
  have htag : (p.move s).tag = p.tag := rfl
  rw [takeTagged, takeTagged, htag, move_takeParams]
  split
  · cases hparams : takeParams h.paramTypes c with
    | mk d unknown =>
      cases unknown with
      | some t => rfl
      | none =>
        cases hret : ZigType.read? h.retType with
        | none => rfl
        | some ret => exact move_declare s p ret l { d with ret := some ret }
  · rfl

theorem move_release (c : Context) : c.release.move s = (c.move s).release := by
  simp [release, Progress.move, move, SourceLine.move, Item.move]

theorem move_passThrough (l : SourceLine) (c : Context) :
    (c.passThrough l).move s = (c.move s).passThrough (l.move s) := by
  rw [passThrough, passThrough, ← move_release]
  exact Progress.move_andThen s _ _ _ fun _ => rfl

theorem move_takeHeader (h : Line.Header) (l : SourceLine) (c : Context) :
    (c.takeHeader h l).move s = (c.move s).takeHeader h (l.move s) := by
  rw [takeHeader, takeHeader, pending_move, ← move_passThrough]
  cases c.pending with
  | some p => exact move_takeTagged s p h l c
  | none => rfl

theorem move_takeOther (l : SourceLine) (c : Context) :
    (c.takeOther l).move s = (c.move s).takeOther (l.move s) := by
  rw [takeOther, takeOther, pending_move]
  cases c.pending with
  | some p => rfl
  | none => exact move_passThrough s l c

theorem move_step (l : SourceLine) (c : Context) :
    (c.step l).move s = (c.move s).step (l.move s) := by
  have hdoc := move_takeDoc s l c
  have htext : (l.move s).text = l.text := rfl
  rw [step, step, ← hdoc, htext]
  cases c.takeDoc? l with
  | some p => rfl
  | none =>
    cases Line.header? (Text.terminated l.text) with
    | some h => exact move_takeHeader s h l c
    | none => exact move_takeOther s l c

theorem move_finish (c : Context) : c.finish.move s = (c.move s).finish := by
  rw [finish, finish, pending_move]
  cases c.pending with
  | some p => rfl
  | none => exact move_release s c

theorem move_steps (ls : List SourceLine) (c : Context) :
    (steps ls c).move s = steps (ls.map (SourceLine.move s)) (c.move s) := by
  induction ls generalizing c with
  | nil => rfl
  | cons l ls ih =>
    rw [steps, List.map_cons, steps, ← move_step]
    exact Progress.move_andThen s _ _ _ fun d => (ih d).symm

end Context

/-- The scan of a source that was moved is the scan of the source, moved. -/
theorem scanCode_move (s : Shift) (code : Text) (file : String) (line : Int) :
    scanCode code s.file (line + s.lines) = (scanCode code file line).move s := by
  have hfresh : ({ file := s.file } : Context) = ({ file := file } : Context).move s := rfl
  rw [scanCode, scanCode, Context.scan, Context.scan, SourceLine.ofCode_move s code file line, hfresh,
    ← Context.move_steps]
  exact (Progress.move_andThen s _ _ _ fun c => (Context.move_finish s c).symm).symm

theorem Declaration.agrees_move (s : Shift) (d : Declaration) : d.agrees (d.move s) = true := by
  simp [agrees, move]

theorem declaration_loc (code : Text) (file : String) (line : Int) :
    ∀ d ∈ (scanCode code file line).declarations, ∃ n, d.loc = some ⟨file, n⟩ := by
  intro d hd
  obtain ⟨-, l, hl, hloc⟩ := (located_scanCode code file line).declared d hd
  have hfile := SourceLine.file_of_mem_ofCode code file line l hl
  exact ⟨l.loc.line, by rw [hloc, ← hfile]⟩

theorem scanCode_moved (code : Text) (f f' : String) (l l' : Int) :
    scanCode code f' l' = (scanCode code f l).move ⟨f', l' - l⟩ := by
  have hline : l + (l' - l) = l' := by omega
  have hmove := scanCode_move ⟨f', l' - l⟩ code f l
  simp only [hline] at hmove
  exact hmove

theorem extract_ok_moves (code : Text) (f : String) (l : Int) (o : Outcome)
    (h : extract code f l = .ok o) (f' : String) (l' : Int) :
    ∃ body ds', o.code = marker f l ++ body ∧ extract code f' l' = .ok ⟨marker f' l' ++ body, ds'⟩ ∧
      List.Forall₂ (fun d d' : Declaration => d.agrees d' = true ∧
        ∃ n, d.loc = some ⟨f, n⟩ ∧ d'.loc = some ⟨f', n + (l' - l)⟩) o.declarations ds' := by
  have hmove := scanCode_moved code f f' l l'
  obtain ⟨hnone, rfl⟩ := (extract_eq_ok_iff ..).mp h
  have hnone' : (scanCode code f' l').failure = none := by
    rw [hmove, Progress.move, hnone]
    rfl
  refine ⟨_, (scanCode code f' l').declarations, rfl, (extract_eq_ok_iff ..).mpr ⟨hnone', ?_⟩, ?_⟩
  · rw [hmove, Progress.texts_move]
  · rw [hmove, Progress.declarations_move, List.forall₂_map_right_iff, List.forall₂_same]
    intro d hd
    obtain ⟨n, hn⟩ := declaration_loc code f l d hd
    exact ⟨d.agrees_move _, n, hn, by rw [Declaration.move, hn]; rfl⟩

theorem extract_error_moves (code : Text) (f : String) (l : Int) (x : Failure)
    (h : extract code f l = .error x) (f' : String) (l' : Int) :
    extract code f' l' = .error (x.move ⟨f', l' - l⟩) := by
  rw [extract_eq_error_iff] at h ⊢
  rw [scanCode_moved code f f' l l', Progress.move, h]
  rfl

/-- The source is given up with the defect `d` at line `n`, or with the number of that line if it has
too many digits. -/
def GivesUp (code : Text) (file : String) (line : Int) (d : Defect) (n : Int) : Prop :=
  deliver code file line =
    .error (if Text.Prints n then .located (d.error ⟨file, n⟩) else .number .unprintable)

theorem givesUp_of_extract (code : Text) (file : String) (line : Int) (d : Defect) (n : Int)
    (hline : Text.Prints line) (h : extract code file line = .error (.defect d ⟨file, n⟩)) :
    GivesUp code file line d n := by
  rw [GivesUp, deliver_prints code file line hline, h]
  exact congrArg Except.error (Failure.raised_defect d ⟨file, n⟩)

/-- A source is delivered in one place as it is in another, if both places have a number that can be
printed: with the same code below the marker and with declarations that differ in their places only;
or it is given up with the same defect, or with the same tag of too many digits. In a place whose
number cannot be printed nothing is delivered. -/
theorem deliver_moves (code : Text) (f f' : String) (l l' : Int) :
    (¬ Text.Prints l → deliver code f l = .error (.number .unprintable)) ∧
    (Text.Prints l → Text.Prints l' →
      (∃ body ds ds', deliver code f l = .ok ⟨marker f l ++ body, ds⟩ ∧
        deliver code f' l' = .ok ⟨marker f' l' ++ body, ds'⟩ ∧
        List.Forall₂ (fun d d' : Declaration => d.agrees d' = true ∧
          ∃ n, d.loc = some ⟨f, n⟩ ∧ d'.loc = some ⟨f', n + (l' - l)⟩) ds ds') ∨
      (∃ d n, GivesUp code f l d n ∧ GivesUp code f' l' d (n + (l' - l))) ∨
      (∃ n, deliver code f l = .error (.number (.unreadable n)) ∧
        deliver code f' l' = .error (.number (.unreadable n)))) := by
  refine ⟨deliver_unprintable code f l, fun hl hl' => ?_⟩
  cases hx : extract code f l with
  | ok o =>
    obtain ⟨body, ds', hcode, hx', hds⟩ := extract_ok_moves code f l o hx f' l'
    refine .inl ⟨body, o.declarations, ds', (deliver_eq_ok_iff ..).mpr ⟨hl, ?_⟩,
      (deliver_eq_ok_iff ..).mpr ⟨hl', hx'⟩, hds⟩
    rw [hx, ← hcode]
  | error x =>
    have hx' := extract_error_moves code f l x hx f' l'
    cases x with
    | defect d loc =>
      obtain ⟨file, n⟩ := loc
      obtain rfl : file = f := defect_loc code f l d _ ((extract_eq_error_iff ..).mp hx)
      exact .inr (.inl ⟨d, n, givesUp_of_extract code file l d n hl hx,
        givesUp_of_extract code f' l' d _ hl' hx'⟩)
    | numeralTooLong n =>
      exact .inr (.inr ⟨n, (deliver_eq_error_iff ..).mpr (.inr ⟨hl, _, hx, rfl⟩),
        (deliver_eq_error_iff ..).mpr (.inr ⟨hl', _, hx', rfl⟩)⟩)

theorem below_first (l : Int) : (2 : Int) + (l - 1) = l + 1 := by omega

theorem givesUp_far (code : Text) (file : String) (d : Defect)
    (h : extract code file 1 = .error (.defect d ⟨file, 2⟩)) :
    deliver code file Text.lastPrinted = .error (.number .unprintable) := by
  have hfar := extract_error_moves code file 1 _ h file Text.lastPrinted
  have hup := givesUp_of_extract _ _ _ _ _ Text.prints_lastPrinted hfar
  rwa [GivesUp, below_first, if_neg Text.not_prints_beyond] at hup

/-- A source whose second line is at fault is given up with the error at the top of a file, but with
the number where that line has one too long. A source without lines is delivered at the top, but not
where the first line would have such a number. -/
theorem deliver_moves_far :
    deliver "\n/// nif: f\n".toList "a.zig" 1 =
      .error (.located ((Defect.malformedTag "/// nif: f".toList).error ⟨"a.zig", 2⟩)) ∧
    deliver "\n/// nif: f\n".toList "a.zig" Text.lastPrinted = .error (.number .unprintable) ∧
    deliver [] "a.zig" 1 = .ok ⟨"// a.zig line: 1\n".toList, []⟩ ∧
    deliver [] "a.zig" ((Text.lastPrinted : Int) + 1) = .error (.number .unprintable) := by
  have hone : Text.Prints 1 := by decide
  have htop : extract "\n/// nif: f\n".toList "a.zig" 1 =
      .error (.defect (.malformedTag "/// nif: f".toList) ⟨"a.zig", 2⟩) := rfl
  exact ⟨givesUp_of_extract _ _ _ _ _ hone htop, givesUp_far _ _ _ htop,
    (deliver_eq_ok_iff ..).mpr ⟨hone, rfl⟩, deliver_unprintable _ _ _ Text.not_prints_beyond⟩

end AnnotatedZig
