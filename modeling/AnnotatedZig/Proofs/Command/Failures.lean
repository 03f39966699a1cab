import AnnotatedZig.Proofs.Command.Run
import AnnotatedZig.Proofs.Line.Tree
import AnnotatedZig.Proofs.Render.Basic

/-!
# What can go wrong

The tree of a line always has the terminals that are read from it, and its options are words of the
vocabulary, so that a line that matches cannot fail for the lack of one. Besides defects, which have a
line, what is left are numbers: the arity of a tag may have too many digits to be read, and the number
of a line too many to be printed. These failures are none that the command reports, and they end it.
-/

set_option autoImplicit false

namespace AnnotatedZig

namespace Line

theorem readTag_of_tree (text : Text) (tree : Tree) (h : tree? text .tag = some tree) :
    (∃ tag, tree.readTag = .ok tag) ∨ ∃ t, tag? text = some t ∧ Text.digitLimit < t.digits.length ∧
      tree.readTag = .error (.numeralTooLong t.digits.length) := by
  obtain ⟨t, ht, rfl⟩ := Option.map_eq_some_iff.mp h
  rw [readTag_tree]
  by_cases length : t.digits.length ≤ Text.digitLimit
  · rw [Context.tag_of_length t length]
    exact .inl ⟨_, rfl⟩
  · have long := Nat.not_le.mp length
    rw [Context.tag_of_long t long]
    exact .inr ⟨t, ht, long, rfl⟩

theorem readSignature_of_tree (text : Text) (tree : Tree) (h : tree? text .header = some tree) :
    ∃ s, tree.readSignature = .ok s := by
  obtain ⟨x, -, rfl⟩ := Option.map_eq_some_iff.mp h
  exact ⟨_, readSignature_tree x⟩

end Line

theorem unprinted_of_not_listable (code : Text) (file : String) (line : Int) (o : Outcome)
    (h : extract code file line = .ok o) (hlist : ¬ Command.Listable o.declarations) :
    ∃ loc, Within code file line loc ∧ ¬ Text.Prints loc.line := by
  simp only [Command.Listable, not_forall] at hlist
  obtain ⟨d, hd, loc, hloc, unprinted⟩ := hlist
  obtain ⟨-, l, hl, within⟩ := declared_within code file line o h d hd
  obtain rfl : loc = l := Option.some.inj (hloc.symm.trans hl)
  exact ⟨loc, within, unprinted⟩

/-- A number is to blame: that of a tag among the lines, or that of a line, which may be the first. -/
def Numbered (code : Text) (file : String) (line : Int) : Text.NumberFault → Prop
  | .unreadable n => Overlong code file line n
  | .unprintable =>
    ¬ Text.Prints line ∨ ∃ loc, Within code file line loc ∧ ¬ Text.Prints loc.line

open Command in
/-- Every failure of an extraction is a defect at a line of the source, or that of a number with too
many digits; what is read from a line that matches cannot fail otherwise. So a run that is asked for
properly ends with code 0, or with code 1 and a report of the defect, unless such a number breaks it
off. -/
theorem failures_located (code : Text) (file : String) (line : Int) :
    (∀ text tree, Line.tree? text .tag = some tree → (∃ tag, tree.readTag = .ok tag) ∨
      ∃ t, Line.tag? text = some t ∧ Text.digitLimit < t.digits.length ∧
        tree.readTag = .error (.numeralTooLong t.digits.length)) ∧
    (∀ text tree, Line.tree? text .header = some tree → ∃ s, tree.readSignature = .ok s) ∧
    (∀ x, deliver code file line = .error x →
      (∃ (d : Defect) (n : Int), x = .located (d.error ⟨file, n⟩) ∧ Within code file line ⟨file, n⟩) ∨
        ∃ fault, x = .number fault ∧ Numbered code file line fault) ∧
    ∀ log args envLevel store r level, Accepted args envLevel store r level file code →
      r.line = line →
      (run log args envLevel store).1.ending = .exit 0 ∨
      (∃ e n, deliver code file line = .error (.located e) ∧ e.span = ⟨some file, some n, none⟩ ∧
        Within code file line ⟨file, n⟩ ∧ (run log args envLevel store).1.Fails r.json
          (log.text level ((deliverEvents code file line).map .event)) e.description file n) ∨
      ∃ fault, Numbered code file line fault ∧
        (run log args envLevel store).1.ending = .crash (.number fault) := by
  have hraised (x : Raised) (hx : deliver code file line = .error x) :
      (∃ (d : Defect) (n : Int), x = .located (d.error ⟨file, n⟩) ∧ Within code file line ⟨file, n⟩) ∨
        ∃ fault, x = .number fault ∧ Numbered code file line fault := by
    rcases raised_cases code file line x hx with ⟨d, n, rfl, within, -⟩ | ⟨n, rfl, long⟩ | ⟨rfl, h⟩
    · exact .inl ⟨d, n, rfl, within⟩
    · exact .inr ⟨.unreadable n, rfl, long⟩
    · exact .inr ⟨.unprintable, rfl, h⟩
  refine ⟨Line.readTag_of_tree, Line.readSignature_of_tree, hraised, ?_⟩
  rintro log args envLevel store r level h rfl
  cases hx : deliver code file r.line with
  | ok o =>
    obtain ⟨hlisted, hbroken⟩ := h.run_succeeds log o hx
    by_cases hlist : r.json = true → Listable o.declarations
    · exact .inl (hlisted hlist).ending
    · obtain ⟨-, hunlisted⟩ := Classical.not_imp.mp hlist
      obtain ⟨-, hextract⟩ := (deliver_eq_ok_iff ..).mp hx
      exact .inr (.inr ⟨.unprintable,
        .inr (unprinted_of_not_listable code file r.line o hextract hunlisted), (hbroken hlist).ending⟩)
  | error x =>
    right
    rcases hraised x hx with ⟨d, n, rfl, -⟩ | ⟨fault, rfl, hfault⟩
    · obtain ⟨m, hspan, within, hfails⟩ := h.run_fails log _ hx
      exact .inl ⟨_, m, rfl, hspan, within, hfails⟩
    · exact .inr ⟨fault, hfault, (h.run_breaks log fault hx).ending⟩

theorem extract_of_long (t : Line.Tag) (h : t.Printable) (long : Text.digitLimit < t.digits.length)
    (rest : Text) (file : String) (line : Int) :
    extract (t.text ++ '\n' :: rest) file line = .error (.numeralTooLong t.digits.length) := by
  let l : SourceLine := ⟨t.text ++ ['\n'], file, line⟩
  have hlines : SourceLine.ofCode (t.text ++ '\n' :: rest) file line =
      l :: SourceLine.number file (line+1) (Text.splitLines rest) := by
    rw [SourceLine.ofCode, Text.splitLines_append_feed _ _ (Line.feed_not_mem_tag t h)]
    rfl
  have hstep : Context.step l { file := file } =
      .fail { file := file } (.numeralTooLong t.digits.length) := by
    rw [Context.step_tag _ l (Line.isTag_tag t h)]
    exact Context.takeTag_long l _ t (Line.tag_line t h) rfl long
  rw [extract_eq_error_iff, scanCode, Context.scan, hlines, Context.steps, hstep]
  rfl

def longTag : Line.Tag := ⟨['f'], List.replicate 4301 '0', []⟩

theorem deliver_longTag :
    deliver (longTag.text ++ '\n' :: "fn f() void \x7b\n\x7d\n".toList) "test.zig" 1 =
      .error (.number (.unreadable 4301)) := by
  have hone : Text.Prints 1 := by decide
  have hdigits : longTag.digits.length = 4301 := List.length_replicate
  have hprintable : longTag.Printable := by
    refine ⟨by decide, ?_, ?_⟩
    · exact List.ne_nil_of_length_pos (by omega)
    · intro c hc
      rw [List.eq_of_mem_replicate hc]
      rfl
  have hlong : Text.digitLimit < longTag.digits.length := by
    rw [hdigits]
    decide
  have hfailure := extract_of_long longTag hprintable hlong "fn f() void \x7b\n\x7d\n".toList "test.zig" 1
  exact (deliver_eq_error_iff ..).mpr (.inr ⟨hone, _, hfailure, by rw [hdigits]; rfl⟩)

end AnnotatedZig
