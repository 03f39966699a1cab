import AnnotatedZig.Proofs.Block.Basic
import AnnotatedZig.Proofs.Text.Pieces
import Mathlib.Data.List.Induction

/-!
# What documentation lines open

The documentation lines of a block are read downward. This module follows the three things that a
line may change: the tag that waits, the remarks, and the documentation they make. Either all the
lines open something together, or a first one of them is at fault.
-/

set_option autoImplicit false

namespace AnnotatedZig

theorem documentation_concat (rs : List Text) (r : Text) :
    documentation (rs ++ [r]) = Context.addDoc r (documentation rs) := by
  unfold documentation
  rw [List.dropWhile_append]
  cases hrs : rs.dropWhile (· = []) with
  | nil =>
    by_cases hr : r = []
    · simp [hr, Context.addDoc]
    · simp [hr, Context.addDoc, Text.joinWith]
  | cons u us =>
    simp [Context.addDoc, Text.joinWith_cons]

namespace Block

theorem remarks_concat_plain (ls : List SourceLine) (l : SourceLine) (h : l.isTag = false) :
    remarks (ls ++ [l]) = remarks ls ++ [Line.remark l.text] := by
  simp [remarks, h]

theorem remarks_concat_tag (ls : List SourceLine) (l : SourceLine) (h : l.isTag = true) :
    remarks (ls ++ [l]) = remarks ls := by
  simp [remarks, h]

theorem opens_none_iff (ls : List SourceLine) :
    Opens ls none ↔ ls.filter SourceLine.isTag = [] := by
  constructor
  · rintro ⟨h⟩
    exact h
  · exact .plain

theorem opens_unique (ls : List SourceLine) (p q : Option Pending) (hp : Opens ls p)
    (hq : Opens ls q) : p = q := by
  cases hp with
  | plain h =>
    cases hq with
    | plain _ => rfl
    | tag h' _ _ => simp [h] at h'
  | tag h form _ =>
    cases hq with
    | plain h' => simp [h] at h'
    | tag h' form' _ =>
      obtain rfl : _ = _ := by simpa [h] using h'
      rw [form, Option.some.injEq] at form'
      rw [form']

theorem opens_concat_plain (ls : List SourceLine) (l : SourceLine) (p : Option Pending)
    (h : l.isTag = false) : Opens (ls ++ [l]) p ↔ Opens ls p := by
  have hf : (ls ++ [l]).filter SourceLine.isTag = ls.filter SourceLine.isTag := by simp [h]
  constructor
  · intro ho
    cases ho with
    | plain h' => exact .plain (hf ▸ h')
    | tag h' form length => exact .tag (hf ▸ h') form length
  · intro ho
    cases ho with
    | plain h' => exact .plain (hf ▸ h')
    | tag h' form length => exact .tag (hf ▸ h') form length

theorem opens_concat_tag (ls : List SourceLine) (l : SourceLine) (p : Option Pending)
    (h : l.isTag = true) :
    Opens (ls ++ [l]) p ↔ Opens ls none ∧ ∃ t, l.tag? = some t ∧
      t.digits.length ≤ Text.digitLimit ∧
      p = some ⟨⟨t.name, Nat.ofDigitChars 10 t.digits 0, t.options⟩, l.loc⟩ := by
  have hf : (ls ++ [l]).filter SourceLine.isTag = ls.filter SourceLine.isTag ++ [l] := by simp [h]
  rw [opens_none_iff]
  constructor
  · intro ho
    cases ho with
    | plain h' => simp [hf] at h'
    | @tag m t h' form length =>
      rw [hf] at h'
      obtain ⟨hnil, rfl⟩ : ls.filter SourceLine.isTag = [] ∧ l = m := by
        simpa [List.append_eq_singleton_iff] using h'
      exact ⟨hnil, t, form, length, rfl⟩
  · rintro ⟨hnil, t, form, length, rfl⟩
    exact .tag (by rw [hf, hnil, List.nil_append]) form length

theorem tag_opens_or_fails (ls : List SourceLine) (l : SourceLine) (p : Option Pending)
    (ho : Opens ls p) (h : l.isTag = true) :
    (∃ q, Opens (ls ++ [l]) q) ∨ ∃ c, TagFails ls l c := by
  cases form : l.tag? with
  | none => exact .inr ⟨_, .malformed form⟩
  | some t =>
    cases p with
    | some p => exact .inr ⟨_, .second form ho⟩
    | none =>
      by_cases length : t.digits.length ≤ Text.digitLimit
      · exact .inl ⟨_, (opens_concat_tag ls l _ h).mpr ⟨ho, t, form, length, rfl⟩⟩
      · exact .inr ⟨_, .tooLong form ho (by omega)⟩

theorem opens_or_fails (ls : List SourceLine) :
    (∃ p, Opens ls p) ∨ ∃ above l below p c,
      ls = above ++ l::below ∧ l.isTag = true ∧ Opens above p ∧ TagFails above l c := by
  induction ls using List.reverseRecOn with
  | nil => exact .inl ⟨none, .plain rfl⟩
  | append_singleton ls l ih =>
    rcases ih with ⟨p, hp⟩ | ⟨above, m, below, p, c, rfl, hm, hp, hc⟩
    · cases h : l.isTag with
      | false => exact .inl ⟨p, (opens_concat_plain ls l p h).mpr hp⟩
      | true =>
        rcases tag_opens_or_fails ls l p hp h with hq | ⟨c, hc⟩
        · exact .inl hq
        · exact .inr ⟨ls, l, [], p, c, rfl, h, hp, hc⟩
    · exact .inr ⟨above, m, below ++ [l], p, c, by simp, hm, hp, hc⟩

theorem types_known_or_not (texts : List Text) :
    (∃ ts : List ZigType, texts.map ZigType.read? = ts.map some) ∨
      ∃ before t after, ∃ ts : List ZigType, texts = before ++ t::after ∧
        before.map ZigType.read? = ts.map some ∧ ZigType.read? t = none := by
  induction texts with
  | nil => exact .inl ⟨[], rfl⟩
  | cons t texts ih =>
    cases ht : ZigType.read? t with
    | none => exact .inr ⟨[], t, texts, [], rfl, rfl, ht⟩
    | some u =>
      rcases ih with ⟨ts, hts⟩ | ⟨before, v, after, ts, rfl, hts, hv⟩
      · exact .inl ⟨u::ts, by simp [ht, hts]⟩
      · exact .inr ⟨t::before, v, after, u::ts, rfl, by simp [ht, hts], hv⟩

theorem reads_or_fails (b : Block) (p : Pending) (ho : Opens b.docs (some p)) :
    Nonempty b.Reading ∨ ∃ c, EndingFails p b.ending c := by
  cases hb : b.ending with
  | none => exact .inr ⟨_, .noLine⟩
  | some s =>
    cases form : s.header? with
    | none => exact .inr ⟨_, .noHeader form⟩
    | some h =>
      by_cases hn : h.name = p.tag.name
      · rcases types_known_or_not h.paramTypes with ⟨ts, hts⟩ | ⟨_, _, _, ts, split, hts, ht⟩
        · cases hr : ZigType.read? h.retType with
          | none => exact .inr ⟨_, .ret form hn hts hr⟩
          | some r =>
            by_cases ha : (ZigType.splitEnv ts).2.length = p.tag.arity
            · exact .inl ⟨⟨p, s, h, ts, r, ho, hb, form, hn, hts, hr, ha⟩⟩
            · exact .inr ⟨_, .arity form hn hts hr ha⟩
        · exact .inr ⟨_, .param form hn split hts ht⟩
      · exact .inr ⟨_, .name form hn⟩

theorem tagged_eq_false_iff (b : Block) : b.tagged = false ↔ Opens b.docs none := by
  rw [opens_none_iff]
  simp [tagged, List.filter_eq_nil_iff]

theorem sound_or_fails (b : Block) : b.Sound ∨ ∃ n c, b.Fails n c := by
  rcases opens_or_fails b.docs with ⟨p, hp⟩ | ⟨above, l, below, p, c, split, hl, hp, hc⟩
  · cases p with
    | none => exact .inl fun h => by simp [(tagged_eq_false_iff b).mpr hp] at h
    | some p =>
      rcases reads_or_fails b p hp with hr | ⟨c, hc⟩
      · exact .inl fun _ => hr
      · exact .inr ⟨_, c, .ending hp hc⟩
  · exact .inr ⟨_, c, .tag split hl hp hc⟩

end Block

end AnnotatedZig
