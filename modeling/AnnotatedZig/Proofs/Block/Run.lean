import AnnotatedZig.Proofs.Block.Cut
import AnnotatedZig.Proofs.Scan.Verdict
import Mathlib.Data.List.Forall2

/-!
# Blocks as a scan meets them

A scan of lines is a scan of their blocks, one after the other. Every sound block takes a fresh
context to a fresh context, so nothing of one block reaches the next; a block that fails ends the
scan with its complaint.
-/

set_option autoImplicit false

namespace AnnotatedZig

namespace Progress

theorem andThen_failure (p : Progress) (next : Context → Progress) :
    (p.andThen next).failure = p.failure.or (next p.context).failure := by
  cases h : p.failure <;> simp [andThen, h]

theorem andThen_none_iff (p : Progress) (next : Context → Progress) :
    (p.andThen next).failure = none ↔ p.failure = none ∧ (next p.context).failure = none := by
  rw [andThen_failure, Option.or_eq_none_iff]

theorem andThen_nothing (p : Progress) : (p.andThen fun c => { context := c }) = p := by
  cases h : p.failure with
  | some f => exact andThen_of_failure p _ f h
  | none =>
    rw [andThen_of_none p _ h]
    cases p
    simp_all

end Progress

namespace Context

def opened (file : String) (ls : List SourceLine) (p : Option Pending) : Context :=
  { file := file, pending := p, doc := documentation (Block.remarks ls), held := ls }

theorem takeDoc_of_tagged (c : Context) (l : SourceLine) (text : Text)
    (doc : Line.doc? (Text.terminated l.text) = some text) (tagged : Line.isTagText text = true) :
    c.takeDoc? l = some (c.takeTag l) := by
  rw [takeDoc?, doc, Option.map_some, if_pos tagged]

theorem takeDoc_of_plain (c : Context) (l : SourceLine) (text : Text)
    (doc : Line.doc? (Text.terminated l.text) = some text) (plain : Line.isTagText text = false) :
    c.takeDoc? l = some (c.takeDocText text l) := by
  rw [takeDoc?, doc, Option.map_some, if_neg (by simp [plain])]

theorem takeDoc_eq_none_iff (c : Context) (l : SourceLine) :
    c.takeDoc? l = none ↔ Line.doc? (Text.terminated l.text) = none :=
  Option.map_eq_none_iff

theorem step_plain (c : Context) (l : SourceLine) (hd : l.isDoc = true) (ht : l.isTag = false) :
    c.step l = { context := { c with doc := addDoc (Line.remark l.text) c.doc }.hold l } := by
  obtain ⟨text, h⟩ := Option.isSome_iff_exists.mp hd
  have ht' : Line.isTagText text = false := by
    simpa [SourceLine.isTag, Line.isTag, h] using ht
  rw [step, takeDoc_of_plain c l text h ht', Line.remark, h]
  rfl

theorem takeDoc_of_isTag (c : Context) (l : SourceLine) (is_tag : l.isTag = true) :
    c.takeDoc? l = some (c.takeTag l) := by
  obtain ⟨text, h, tagged⟩ := (Option.any_eq_true _ _).mp is_tag
  exact takeDoc_of_tagged c l text h tagged

theorem step_tag (c : Context) (l : SourceLine) (ht : l.isTag = true) :
    c.step l = c.takeTag l := by
  rw [step, takeDoc_of_isTag c l ht]

theorem takeDoc_of_not_isDoc (c : Context) (s : SourceLine) (hd : s.isDoc = false) :
    c.takeDoc? s = none := by
  rw [takeDoc_eq_none_iff]
  simpa [SourceLine.isDoc, Line.isDoc] using hd

theorem step_header (c : Context) (s : SourceLine) (h : Line.Header) (hd : s.isDoc = false)
    (form : s.header? = some h) : c.step s = c.takeHeader h s := by
  have form' : Line.header? (Text.terminated s.text) = some h := form
  simp [step, takeDoc_of_not_isDoc c s hd, form']

theorem step_other (c : Context) (s : SourceLine) (hd : s.isDoc = false)
    (form : s.header? = none) : c.step s = c.takeOther s := by
  have form' : Line.header? (Text.terminated s.text) = none := form
  simp [step, takeDoc_of_not_isDoc c s hd, form']

theorem tag_of_length (t : Line.Tag) (length : t.digits.length ≤ Text.digitLimit) :
    Tag.ofLine t = .ok ⟨t.name, Nat.ofDigitChars 10 t.digits 0, t.options⟩ := by
  rw [Tag.ofLine, Text.readNumeral, if_pos length]
  rfl

theorem tag_of_long (t : Line.Tag) (long : Text.digitLimit < t.digits.length) :
    Tag.ofLine t = .error t.digits.length := by
  rw [Tag.ofLine, Text.readNumeral, if_neg (Nat.not_le.mpr long)]
  rfl

theorem takeTag_form (c : Context) (l : SourceLine) (t : Line.Tag) (form : l.tag? = some t)
    (hc : c.pending = none) (length : t.digits.length ≤ Text.digitLimit) :
    let p : Pending := ⟨⟨t.name, Nat.ofDigitChars 10 t.digits 0, t.options⟩, l.loc⟩
    c.takeTag l = { context := { c with pending := some p }.hold l, events := [.pending p] } := by
  have form' : Line.tag? (Text.terminated l.text) = some t := form
  simp only [takeTag, form', hc, tag_of_length t length]

theorem takeTag_malformed (l : SourceLine) (c : Context) (form : l.tag? = none) :
    c.takeTag l = .fail c (.defect (.malformedTag (Text.trim l.text)) l.loc) := by
  have form' : Line.tag? (Text.terminated l.text) = none := form
  rw [takeTag, form']

theorem takeTag_second (l : SourceLine) (c : Context) (t : Line.Tag) (p : Pending)
    (form : l.tag? = some t) (waits : c.pending = some p) :
    c.takeTag l = .fail c p.missingHeader := by
  have form' : Line.tag? (Text.terminated l.text) = some t := form
  rw [takeTag, form', waits]

theorem takeTag_long (l : SourceLine) (c : Context) (t : Line.Tag) (form : l.tag? = some t)
    (free : c.pending = none) (long : Text.digitLimit < t.digits.length) :
    c.takeTag l = .fail c (.numeralTooLong t.digits.length) := by
  have form' : Line.tag? (Text.terminated l.text) = some t := form
  simp only [takeTag, form', free, tag_of_long t long]

theorem steps_opens (file : String) (ls : List SourceLine) (p : Option Pending)
    (ho : Block.Opens ls p) (hd : ∀ l ∈ ls, l.isDoc = true) :
    steps ls { file := file } =
      { context := opened file ls p, events := p.toList.map .pending } := by
  -- The last line is what a step sees, and a tag may only come where nothing waits yet.
  induction ls using List.reverseRecOn generalizing p with
  | nil =>
    obtain rfl : p = none := Block.opens_unique [] p none ho (.plain rfl)
    rfl
  | append_singleton ls l ih =>
    have hls : ∀ m ∈ ls, m.isDoc = true := fun m hm => hd m (by simp [hm])
    have hl : l.isDoc = true := hd l (by simp)
    have one (c : Context) : steps [l] c = c.step l := Progress.andThen_nothing (c.step l)
    cases ht : l.isTag with
    | false =>
      have hp := (Block.opens_concat_plain ls l p ht).mp ho
      rw [steps_append, ih p hp hls, Progress.andThen_of_none _ _ rfl, one, step_plain _ l hl ht]
      simp [opened, hold, Block.remarks_concat_plain ls l ht, documentation_concat]
    | true =>
      obtain ⟨hnone, t, form, length, rfl⟩ := (Block.opens_concat_tag ls l p ht).mp ho
      rw [steps_append, ih none hnone hls, Progress.andThen_of_none _ _ rfl, one,
        step_tag _ l ht, takeTag_form _ l t form rfl length]
      simp [opened, hold, Block.remarks_concat_tag ls l ht]

theorem takeTag_fails (file : String) (above : List SourceLine) (l : SourceLine)
    (p : Option Pending) (c : Complaint) (ho : Block.Opens above p)
    (hf : Block.TagFails above l c) :
    ∃ f, ((opened file above p).takeTag l).failure = some f ∧ f.complaint = c := by
  cases hf with
  | malformed form =>
    exact ⟨.defect (.malformedTag (Text.trim l.text)) l.loc,
      by rw [takeTag_malformed l _ form, Progress.fail], rfl⟩
  | @second t q form waits =>
    obtain rfl := Block.opens_unique above p (some q) ho waits
    exact ⟨q.missingHeader, by rw [takeTag_second l _ t q form rfl, Progress.fail], rfl⟩
  | @tooLong t form waits length =>
    obtain rfl := Block.opens_unique above p none ho waits
    exact ⟨.numeralTooLong t.digits.length,
      by rw [takeTag_long l _ t form rfl length, Progress.fail], rfl⟩

end Context

namespace Block

def close : Option SourceLine → Context → Progress
  | none, c => c.finish
  | some s, c => c.step s

def scan (b : Block) (c : Context) : Progress := (c.steps b.docs).andThen (close b.ending)

def scanAll : List Block → Context → Progress
  | [], c => { context := c }
  | b::bs, c => (b.scan c).andThen (scanAll bs)

theorem scanAll_addDoc (l : SourceLine) (b : Block) (bs : List Block) (c : Context) :
    scanAll (addDoc l (b::bs)) c = (c.step l).andThen (scanAll (b::bs)) := by
  have hb : scanAll (b::bs) = fun d => (d.steps b.docs).andThen fun e =>
      (close b.ending e).andThen (scanAll bs) := by
    ext1 d
    rw [scanAll, scan, Progress.andThen_assoc]
  rw [addDoc, scanAll, scan, Context.steps, Progress.andThen_assoc, Progress.andThen_assoc, hb]

theorem scanAll_cut (ls : List SourceLine) (c : Context) :
    scanAll (cut ls) c = (c.steps ls).andThen Context.finish := by
  induction ls generalizing c with
  | nil => exact Progress.andThen_nothing _
  | cons l ls ih =>
    rw [Context.steps, Progress.andThen_assoc, ← funext ih]
    cases hl : l.isDoc with
    | false => rw [cut_ending l ls hl]; rfl
    | true =>
      obtain ⟨b, bs, hcut⟩ := List.exists_cons_of_ne_nil (cut_ne_nil ls)
      rw [cut_doc l ls hl, hcut, scanAll_addDoc]

def passing (b : Block) : List Event :=
  b.ending.toList.filterMap fun s => s.header?.map fun h => .passing h.name s.loc

theorem scan_opens (file : String) (b : Block) (p : Option Pending) (ho : Opens b.docs p)
    (hw : b.WellCut) :
    b.scan { file := file } =
      Progress.andThen { context := .opened file b.docs p, events := p.toList.map .pending }
        (close b.ending) := by
  rw [scan, Context.steps_opens file b.docs p ho hw.docs]

theorem scan_plain (file : String) (b : Block) (ho : Opens b.docs none) (hw : b.WellCut) :
    b.scan { file := file } =
      { context := { file := file }, items := b.kept.map .text, events := b.passing } := by
  have ht := (tagged_eq_false_iff b).mpr ho
  rw [scan_opens file b none ho hw]
  cases hb : b.ending with
  | none =>
    simp [close, Context.finish, Context.opened, Context.release, Progress.andThen, kept, ht,
      lines, hb, passing, Function.comp_def]
  | some s =>
    have hs := hw.ending s hb
    cases form : s.header? with
    | none =>
      simp [close, Context.step_other _ s hs form, Context.takeOther, Context.passThrough,
        Context.opened, Context.release, Progress.andThen, kept, ht, lines, hb, passing, form,
        Function.comp_def]
    | some h =>
      simp [close, Context.step_header _ s h hs form, Context.takeHeader, Context.passThrough,
        Context.opened, Context.release, Progress.andThen, kept, ht, lines, hb, passing, form,
        Function.comp_def]

theorem close_header (file : String) (docs : List SourceLine) (p : Pending) (s : SourceLine)
    (h : Line.Header) (q : Progress) (hs : s.isDoc = false) (form : s.header? = some h)
    (verdict : Context.Verdict h s (.opened file docs (some p)) q) :
    close (some s) (.opened file docs (some p)) = q := by
  rw [close, Context.step_header _ s h hs form]
  exact Context.takeHeader_of_verdict h s _ q verdict

theorem scan_reading (file : String) (b : Block) (r : b.Reading) (hw : b.WellCut) :
    b.scan { file := file } =
      { context := { file := file }
        items := [.text r.line.text, .declaration r.declaration]
        events := [.pending r.pending, .declared r.declaration r.line.loc] } := by
  have hs := hw.ending r.line r.ending_eq
  have hclose := close_header file b.docs r.pending r.line r.header _ hs r.header_eq
    (.declare rfl r.name_eq r.types_eq r.ret_eq rfl r.arity_eq rfl)
  rw [scan_opens file b _ r.opens hw, r.ending_eq, Progress.andThen_of_none _ _ rfl, hclose]
  rfl

theorem step_fails (file : String) (docs : List SourceLine) (p : Pending)
    (e : Option SourceLine) (c : Complaint) (hw : ∀ s, e = some s → s.isDoc = false)
    (hf : EndingFails p e c) :
    ∃ f, (close e (.opened file docs (some p))).failure = some f ∧ f.complaint = c := by
  cases hf with
  | noLine => exact ⟨p.missingHeader, rfl, rfl⟩
  | @noHeader s form =>
    refine ⟨p.missingHeader, ?_, rfl⟩
    rw [close, Context.step_other _ s (hw s rfl) form]
    rfl
  | @name s h form name_ne =>
    refine ⟨.defect (.strayHeader p.tag.name h.name) s.loc, ?_, rfl⟩
    rw [close_header file docs p s h _ (hw s rfl) form (.stray rfl name_ne), Progress.fail]
  | @param s h before after t ts form name_eq split known unknown =>
    refine ⟨.defect (.unsupportedParam p.tag.name t) s.loc, ?_, rfl⟩
    rw [close_header file docs p s h _ (hw s rfl) form (.param rfl name_eq split known unknown),
      Progress.fail]
  | @ret s h ts form name_eq known unknown =>
    refine ⟨.defect (.unsupportedReturn p.tag.name h.retType) s.loc, ?_, rfl⟩
    rw [close_header file docs p s h _ (hw s rfl) form (.ret rfl name_eq known unknown),
      Progress.fail]
  | @arity s h ts r form name_eq known ret_known arity_ne =>
    refine ⟨.defect (.arityMismatch p.tag.arity (ZigType.splitEnv ts).2.length) s.loc, ?_, rfl⟩
    rw [close_header file docs p s h _ (hw s rfl) form
      (.arity rfl name_eq known ret_known rfl arity_ne), Progress.fail]
    rfl

theorem scan_fails (file : String) (b : Block) (n : Nat) (c : Complaint) (hw : b.WellCut)
    (hf : b.Fails n c) :
    ∃ f, (b.scan { file := file }).failure = some f ∧ f.complaint = c := by
  cases hf with
  | @tag above below l p c split is_tag opens fails =>
    have habove : ∀ m ∈ above, m.isDoc = true := fun m hm => hw.docs m (by simp [split, hm])
    obtain ⟨f, hf, hc⟩ := Context.takeTag_fails file above l p c opens fails
    refine ⟨f, ?_, hc⟩
    rw [scan, split, Context.steps_append, Context.steps_opens file above p opens habove,
      Progress.andThen_failure, Progress.andThen_failure, Context.steps,
      Progress.andThen_failure, Context.step_tag _ l is_tag, hf]
    rfl
  | @ending p c opens fails =>
    obtain ⟨f, hf, hc⟩ := step_fails file b.docs p b.ending c hw.ending fails
    refine ⟨f, ?_, hc⟩
    rw [scan_opens file b (some p) opens hw, Progress.andThen_failure, hf]
    rfl

end Block

end AnnotatedZig
