import AnnotatedZig.Proofs.Line.Basic
import AnnotatedZig.Proofs.Line.Tree
import AnnotatedZig.Proofs.Text.Pieces

/-!
# Function headers, laid out

A header may be written with any number of spaces between its pieces. A layout says how many stand
where, and what the pieces are. A line has at most one layout, and it is read as a header exactly if
it has one in which no type is a lone space; it is then read as its layout says. A lone space where a
type should be is the one exception: two spaces are a type, though an empty one once trimmed.
-/

set_option autoImplicit false

namespace AnnotatedZig.Line

/-- A parameter `NAME: TYPE` after spaces. The type reaches as far as it can. -/
structure ParamLayout where
  indent : Nat
  name : Text
  gap : Nat
  type : Text
  is_name : IsName name
  type_ne : type ≠ []
  type_chars : ',' ∉ type ∧ ')' ∉ type

inductive ListLayout where
  | blank (n : Nat)
  | listed (first : ParamLayout) (more : List ParamLayout)

/-- A header: `fn` and its name, the parameters in parentheses, the return type as far as to the first
brace, and the brace with all that follows it. -/
structure HeaderLayout where
  indent : Nat
  gap : Nat
  name : Text
  beforeOpen : Nat
  inner : ListLayout
  ret : Text
  body : Text
  gap_pos : 0 < gap
  is_name : IsName name
  ret_ne : ret ≠ []
  ret_chars : '\x7b' ∉ ret
  body_start : ∀ c, body.head? = some c → c = '\x7b'

namespace ParamLayout

def text (p : ParamLayout) : Text :=
  spaces p.indent ++ (p.name ++ (spaces p.gap ++ ':' :: p.type))

def param (p : ParamLayout) : Param := ⟨p.name, p.type⟩

end ParamLayout

namespace ListLayout

def all : ListLayout → List ParamLayout
  | blank _ => []
  | listed p ps => p::ps

def text : ListLayout → Text
  | blank n => spaces n
  | listed p ps => p.text ++ ps.flatMap fun q => ',' :: q.text

def params (l : ListLayout) : List Param := l.all.map ParamLayout.param

end ListLayout

namespace HeaderLayout

def text (l : HeaderLayout) : Text :=
  spaces l.indent ++ ('f' :: 'n' :: (spaces l.gap ++ (l.name ++ (spaces l.beforeOpen ++
    '(' :: (l.inner.text ++ ')' :: (l.ret ++ l.body))))))

def header (l : HeaderLayout) : Header := ⟨l.name, l.inner.params, l.ret, l.body⟩

/-- No type is a lone space. -/
def Proper (l : HeaderLayout) : Prop := (∀ p ∈ l.inner.all, p.type ≠ [' ']) ∧ l.ret ≠ [' ']

end HeaderLayout

theorem isText_iff (s : Text) : isText s = true ↔ s ≠ [] ∧ s ≠ [' '] := by
  simp [isText]

theorem head_spaces_append (n : Nat) (c d : Char) (s : Text)
    (h : (spaces n ++ c::s).head? = some d) : d = ' ' ∨ d = c := by
  cases n with
  | zero =>
    obtain rfl : c = d := by simpa [spaces] using h
    exact .inr rfl
  | succ n =>
    obtain rfl : ' ' = d := by simpa [spaces, List.replicate_succ] using h
    exact .inl rfl

theorem name_ends (n : Nat) (c : Char) (s : Text) (hc : isNameChar c = false) :
    ∀ d, (spaces n ++ c::s).head? = some d → isNameChar d = false := by
  intro d hd
  rcases head_spaces_append n c d s hd with rfl | rfl
  · rfl
  · exact hc

theorem head_run_append (p : Char → Bool) (w s : Text) (hp : p ' ' = false) (hne : w ≠ [])
    (hw : ∀ c ∈ w, p c = true) : (w ++ s).head? ≠ some ' ' := by
  obtain ⟨c, w, rfl⟩ := List.exists_cons_of_ne_nil hne
  intro hspace
  obtain rfl : c = ' ' := by simpa using hspace
  simp [hw ' ' (by simp)] at hp

theorem head_name_append (w s : Text) (h : IsName w) : (w ++ s).head? ≠ some ' ' :=
  head_run_append isNameChar w s rfl h.ne h.chars

theorem not_mem_spaces (n : Nat) (c : Char) (hc : c ≠ ' ') : c ∉ spaces n :=
  fun h => hc (mem_spaces n c h)

namespace ParamLayout

theorem not_mem_text (p : ParamLayout) (c : Char) (hc : c = ',' ∨ c = ')') : c ∉ p.text := by
  rcases hc with rfl | rfl
  · simp [text, not_mem_spaces, not_mem_name p.name p.is_name ',' rfl, p.type_chars.1]
  · simp [text, not_mem_spaces, not_mem_name p.name p.is_name ')' rfl, p.type_chars.2]

theorem text_injective (p q : ParamLayout) (h : p.text = q.text) : p = q := by
  obtain ⟨hindent, hname⟩ := spaces_unique _ _ _ _ (head_name_append _ _ p.is_name)
    (head_name_append _ _ q.is_name) h
  obtain ⟨hname, hgap⟩ := run_unique isNameChar _ _ _ _ p.is_name.chars q.is_name.chars
    (name_ends _ ':' _ rfl) (name_ends _ ':' _ rfl) hname
  obtain ⟨hgap, htype⟩ := spaces_unique _ _ _ _ (by simp) (by simp) hgap
  cases p
  cases q
  simp_all

theorem ofPiece_eq_some_iff (piece : Text) (x : Param) (h : ',' ∉ piece ∧ ')' ∉ piece) :
    Param.ofPiece? piece = some x ↔
      ∃ p : ParamLayout, p.text = piece ∧ p.type ≠ [' '] ∧ p.param = x := by
  constructor
  · intro hread
    simp only [Param.ofPiece?, Option.bind_eq_bind, Option.bind_eq_some_iff, Prod.exists,
      name_eq_some_iff, mark_eq_some_iff ':' _ _ (by decide : ':' ≠ ' '),
      Option.ite_none_right_eq_some, isText_iff, Option.some.injEq] at hread
    obtain ⟨name, _, ⟨hname, -, n, rfl⟩, type, ⟨m, rfl⟩, ⟨hne, hlone⟩, rfl⟩ := hread
    have hcomma : ',' ∉ type := fun hm => h.1 (by simp [hm])
    have hclose : ')' ∉ type := fun hm => h.2 (by simp [hm])
    exact ⟨⟨n, name, m, type, hname, hne, hcomma, hclose⟩, rfl, hlone, rfl⟩
  · rintro ⟨p, rfl, hlone, rfl⟩
    have hname := (name_eq_some_iff p.text p.name _).mpr
      ⟨p.is_name, name_ends p.gap ':' p.type rfl, p.indent, rfl⟩
    have hmark := (mark_eq_some_iff ':' _ p.type (by decide)).mpr ⟨p.gap, rfl⟩
    have htype := (isText_iff p.type).mpr ⟨p.type_ne, hlone⟩
    simp only [Param.ofPiece?, hname, hmark, htype, Option.bind_eq_bind, Option.bind_some, if_true]
    rfl

theorem ofPieces_eq_some_iff (pieces : List Text) (xs : List Param)
    (h : ∀ piece ∈ pieces, ',' ∉ piece ∧ ')' ∉ piece) :
    pieces.mapM Param.ofPiece? = some xs ↔
      ∃ ps : List ParamLayout, ps.map text = pieces ∧ (∀ p ∈ ps, p.type ≠ [' ']) ∧
        ps.map param = xs := by
  constructor
  · intro hread
    induction pieces generalizing xs with
    | nil => exact ⟨[], rfl, by simp, by simpa using hread⟩
    | cons piece pieces ih =>
      rw [List.forall_mem_cons] at h
      rw [List.mapM_cons] at hread
      simp only [Option.bind_eq_bind, Option.bind_eq_some_iff, Option.pure_def,
        Option.some.injEq] at hread
      obtain ⟨x, hx, ys, hys, rfl⟩ := hread
      obtain ⟨p, rfl, hp, rfl⟩ := (ofPiece_eq_some_iff piece x h.1).mp hx
      obtain ⟨ps, rfl, hps, rfl⟩ := ih ys h.2 hys
      exact ⟨p::ps, rfl, List.forall_mem_cons.mpr ⟨hp, hps⟩, rfl⟩
  · rintro ⟨ps, rfl, hps, rfl⟩
    induction ps with
    | nil => rfl
    | cons p ps ih =>
      rw [List.map_cons, List.forall_mem_cons] at h
      rw [List.forall_mem_cons] at hps
      have hp := (ofPiece_eq_some_iff p.text p.param h.1).mpr ⟨p, rfl, hps.1, rfl⟩
      rw [List.map_cons, List.mapM_cons, hp, ih h.2 hps.2]
      rfl

end ParamLayout

namespace ListLayout

theorem not_mem_text (l : ListLayout) : ')' ∉ l.text := by
  cases l with
  | blank n => exact not_mem_spaces n ')' (by decide)
  | listed p ps => simp [text, p.not_mem_text, ParamLayout.not_mem_text]

theorem cut_text (p : ParamLayout) (ps : List ParamLayout) :
    Text.cut ',' (listed p ps).text = (p::ps).map ParamLayout.text := by
  have hcommas : ∀ u ∈ ps.map ParamLayout.text, ',' ∉ u := by
    intro u hu
    obtain ⟨q, -, rfl⟩ := List.mem_map.mp hu
    exact q.not_mem_text ',' (.inl rfl)
  have hcut := Text.cut_pieces ',' p.text _ (p.not_mem_text ',' (.inl rfl)) hcommas
  rwa [List.flatMap_map] at hcut

theorem text_of_cut (p : ParamLayout) (ps : List ParamLayout) (inner : Text)
    (h : (p::ps).map ParamLayout.text = Text.cut ',' inner) : (listed p ps).text = inner := by
  rw [← Text.joinWith_cut ',' inner, ← h, List.map_cons, Text.joinWith_cons, List.flatMap_map]
  rfl

theorem all_spaces_iff (inner : Text) :
    inner.all (· = ' ') = true ↔ ∃ n, (blank n).text = inner := by
  constructor
  · intro h
    have hall : ∀ c ∈ inner, c = ' ' := by simpa using h
    exact ⟨inner.length, (List.eq_replicate_of_mem hall).symm⟩
  · rintro ⟨n, rfl⟩
    simpa [text] using mem_spaces n

theorem listed_not_spaces (p : ParamLayout) (ps : List ParamLayout) :
    (listed p ps).text.all (· = ' ') = false := by
  obtain ⟨c, w, hw⟩ := List.exists_cons_of_ne_nil p.is_name.ne
  have hc : c ≠ ' ' := by
    rintro rfl
    exact absurd (p.is_name.chars ' ' (by simp [hw])) (by decide)
  simp [text, ParamLayout.text, hw, hc]

theorem text_injective (l m : ListLayout) (h : l.text = m.text) : l = m := by
  cases l with
  | blank k =>
    cases m with
    | blank n => simpa [text, spaces] using congrArg List.length h
    | listed q qs =>
      have hspaces := (all_spaces_iff (listed q qs).text).mpr ⟨k, h⟩
      simp [listed_not_spaces] at hspaces
  | listed p ps =>
    cases m with
    | blank n =>
      have hspaces := (all_spaces_iff (listed p ps).text).mpr ⟨n, h.symm⟩
      simp [listed_not_spaces] at hspaces
    | listed q qs =>
      have hcut := congrArg (Text.cut ',') h
      rw [cut_text, cut_text] at hcut
      obtain ⟨rfl, rfl⟩ := List.cons.inj (List.map_injective_iff.mpr ParamLayout.text_injective hcut)
      rfl

theorem params_eq_some_iff (inner : Text) (xs : List Param) (h : ')' ∉ inner) :
    params? inner = some xs ↔
      ∃ l : ListLayout, l.text = inner ∧ (∀ p ∈ l.all, p.type ≠ [' ']) ∧ l.params = xs := by
  have hpieces : ∀ piece ∈ Text.cut ',' inner, ',' ∉ piece ∧ ')' ∉ piece := by
    intro piece hp
    exact ⟨Text.not_mem_of_mem_cut ',' inner piece hp,
      fun hm => h (Text.subset_of_mem_cut ',' inner piece hp hm)⟩
  cases hblank : inner.all (· = ' ') with
  | true =>
    obtain ⟨n, rfl⟩ := (all_spaces_iff inner).mp hblank
    rw [params?, if_pos hblank, Option.some.injEq]
    constructor
    · rintro rfl
      exact ⟨blank n, rfl, by simp [all], rfl⟩
    · rintro ⟨l, hl, -, rfl⟩
      rw [text_injective l (blank n) hl]
      rfl
  | false =>
    rw [params?, hblank, if_neg (by simp), ParamLayout.ofPieces_eq_some_iff _ _ hpieces]
    constructor
    · rintro ⟨ps, hps, hlone, rfl⟩
      cases ps with
      | nil => exact absurd hps.symm (Text.cut_ne_nil ',' inner)
      | cons p ps => exact ⟨listed p ps, text_of_cut p ps inner hps, hlone, rfl⟩
    · rintro ⟨l, rfl, hlone, rfl⟩
      cases l with
      | blank n => simp [(all_spaces_iff _).mpr ⟨n, rfl⟩] at hblank
      | listed p ps => exact ⟨p::ps, (cut_text p ps).symm, hlone, rfl⟩

end ListLayout

theorem untilClose_eq_some_iff (s inner r : Text) :
    untilClose? s = some (inner, r) ↔ ')' ∉ inner ∧ s = inner ++ ')'::r := by
  constructor
  · intro h
    rw [untilClose?] at h
    split at h
    · simp at h
    · next c rest hrest =>
      obtain ⟨rfl, rfl⟩ := Prod.mk.inj (Option.some.inj h)
      have hinner : ')' ∉ s.takeWhile (· ≠ ')') := by
        intro hm
        simpa using List.mem_takeWhile_imp hm
      have hc : c = ')' := by
        have hfirst := List.head?_dropWhile_not (· ≠ ')') s
        rw [hrest] at hfirst
        simpa using hfirst
      refine ⟨hinner, ?_⟩
      rw [← hc, ← hrest, hc]
      exact List.takeWhile_append_dropWhile.symm
  · rintro ⟨hinner, rfl⟩
    have hopen : ∀ c ∈ inner, decide (c ≠ ')') = true := by
      intro c hc
      simpa using ne_of_mem_of_not_mem hc hinner
    rw [untilClose?, List.dropWhile_append_of_pos hopen, List.takeWhile_append_of_pos hopen]
    simp

theorem brace_ends (body : Text) (h : ∀ c, body.head? = some c → c = '\x7b') :
    ∀ c, body.head? = some c → decide (c ≠ '\x7b') = false := by
  intro c hc
  simpa using h c hc

theorem no_brace (ret : Text) (h : '\x7b' ∉ ret) : ∀ c ∈ ret, decide (c ≠ '\x7b') = true := by
  intro c hc
  simpa using ne_of_mem_of_not_mem hc h

namespace HeaderLayout

theorem text_injective (l m : HeaderLayout) (h : l.text = m.text) : l = m := by
  obtain ⟨hindent, hfn⟩ := spaces_unique _ _ _ _ (by simp) (by simp) h
  obtain ⟨hgap, hname⟩ := spaces_unique _ _ _ _ (head_name_append _ _ l.is_name)
    (head_name_append _ _ m.is_name) (List.cons.inj (List.cons.inj hfn).2).2
  obtain ⟨hname, hopen⟩ := run_unique isNameChar _ _ _ _ l.is_name.chars m.is_name.chars
    (name_ends _ '(' _ rfl) (name_ends _ '(' _ rfl) hname
  obtain ⟨hopen, hinner⟩ := spaces_unique _ _ _ _ (by simp) (by simp) hopen
  have hclosed (k : HeaderLayout) : untilClose? (k.inner.text ++ ')' :: (k.ret ++ k.body)) =
      some (k.inner.text, k.ret ++ k.body) :=
    (untilClose_eq_some_iff _ _ _).mpr ⟨k.inner.not_mem_text, rfl⟩
  have hsplit := hclosed l
  rw [(List.cons.inj hinner).2, hclosed m, Option.some.injEq, Prod.mk.injEq] at hsplit
  obtain ⟨hret, hbody⟩ := run_unique _ _ _ _ _ (no_brace _ l.ret_chars) (no_brace _ m.ret_chars)
    (brace_ends _ l.body_start) (brace_ends _ m.body_start) hsplit.2.symm
  have hparams := ListLayout.text_injective _ _ hsplit.1.symm
  cases l
  cases m
  simp_all

theorem ofBody_eq_some_iff (t : Text) (x : Header) :
    Header.ofBody? t = some x ↔ ∃ l : HeaderLayout, l.text = t ∧ l.Proper ∧ l.header = x := by
  have hfn : "fn ".toList = ['f', 'n', ' '] := rfl
  constructor
  · intro hread
    simp only [Header.ofBody?, Option.bind_eq_bind, Option.bind_eq_some_iff, Prod.exists, hfn,
      word_spaces_iff _ 'f' _ _ (by decide : 'f' ≠ ' '), name_eq_some_iff,
      mark_eq_some_iff '(' _ _ (by decide : '(' ≠ ' '), untilClose_eq_some_iff, run_eq_some_iff,
      Option.ite_none_right_eq_some, isText_iff, Option.some.injEq] at hread
    obtain ⟨_, ⟨indent, rfl⟩, name, _, ⟨is_name, -, gap, rfl⟩, _, ⟨beforeOpen, rfl⟩, inner, _,
      ⟨hclose, rfl⟩, params, hparams, ret, body, ⟨hne, hret, hbody, rfl⟩, ⟨-, hlone⟩, rfl⟩ := hread
    obtain ⟨l, rfl, hproper, rfl⟩ := (ListLayout.params_eq_some_iff inner params hclose).mp hparams
    have ret_chars : '\x7b' ∉ ret := fun hm => by simpa using hret _ hm
    have body_start : ∀ c, body.head? = some c → c = '\x7b' := fun c hc => by
      simpa using hbody c hc
    exact ⟨⟨indent, gap+1, name, beforeOpen, l, ret, body, by omega, is_name, hne, ret_chars,
      body_start⟩, rfl, ⟨hproper, hlone⟩, rfl⟩
  · rintro ⟨l, rfl, ⟨hproper, hlone⟩, rfl⟩
    let opened := l.inner.text ++ ')' :: (l.ret ++ l.body)
    let named := spaces l.beforeOpen ++ '(' :: opened
    obtain ⟨gap, hgap⟩ := Nat.exists_eq_succ_of_ne_zero (Nat.ne_of_gt l.gap_pos)
    have hword : word? ['f', 'n', ' '] (skipSpaces l.text) = some (spaces gap ++ (l.name ++ named)) :=
      (word_spaces_iff ['n', ' '] 'f' _ _ (by decide)).mpr ⟨l.indent, by rw [text, hgap]; rfl⟩
    have hname : name? (spaces gap ++ (l.name ++ named)) = some (l.name, named) :=
      (name_eq_some_iff _ _ _).mpr ⟨l.is_name, name_ends l.beforeOpen '(' opened rfl, gap, rfl⟩
    have hopen : mark? '(' named = some opened :=
      (mark_eq_some_iff '(' _ _ (by decide)).mpr ⟨l.beforeOpen, rfl⟩
    have hclose : untilClose? opened = some (l.inner.text, l.ret ++ l.body) :=
      (untilClose_eq_some_iff _ _ _).mpr ⟨l.inner.not_mem_text, rfl⟩
    have hparams := (ListLayout.params_eq_some_iff _ _ l.inner.not_mem_text).mpr
      ⟨l.inner, rfl, hproper, rfl⟩
    have hret := (run_eq_some_iff _ _ l.ret l.body).mpr
      ⟨l.ret_ne, no_brace l.ret l.ret_chars, brace_ends l.body l.body_start, rfl⟩
    have htext := (isText_iff l.ret).mpr ⟨l.ret_ne, hlone⟩
    simp only [Header.ofBody?, Option.bind_eq_bind, hfn, hword, Option.bind_some, hname, hopen,
      hclose, hparams, hret, htext, if_true]
    rfl

end HeaderLayout

/-- The language of header lines, and the signature that the tree of one is read to. -/
theorem header_language (t : Text) (h : '\n' ∉ t) :
    ((∃ x, header? (t ++ ['\n']) = some x) ↔ ∃ l : HeaderLayout, l.text = t ∧ l.Proper) ∧
      (∀ l m : HeaderLayout, l.text = t → m.text = t → l = m) ∧
      ∀ l : HeaderLayout, l.text = t → l.Proper →
        ∃ tree, tree? (t ++ ['\n']) .header = some tree ∧ tree.readSignature =
          .ok ⟨l.name, l.inner.all.map fun p => Text.trim p.type, Text.trim l.ret⟩ := by
  have hread (x : Header) : header? (t ++ ['\n']) = some x ↔
      ∃ l : HeaderLayout, l.text = t ∧ l.Proper ∧ l.header = x := by
    rw [header?, body_ended t h, Option.bind_some, HeaderLayout.ofBody_eq_some_iff]
  refine ⟨?_, fun l m hl hm => HeaderLayout.text_injective l m (hl.trans hm.symm), ?_⟩
  · constructor
    · rintro ⟨x, hx⟩
      obtain ⟨l, hl, hproper, -⟩ := (hread x).mp hx
      exact ⟨l, hl, hproper⟩
    · rintro ⟨l, hl, hproper⟩
      exact ⟨l.header, (hread l.header).mpr ⟨l, hl, hproper, rfl⟩⟩
  · intro l hl hproper
    have hx := (hread l.header).mpr ⟨l, hl, hproper, rfl⟩
    refine ⟨l.header.tree, by rw [tree?, hx, Option.map_some], ?_⟩
    rw [readSignature_tree, Header.paramTypes, HeaderLayout.header, ListLayout.params, List.map_map]
    rfl

def spacedLayout : HeaderLayout where
  indent := 2
  gap := 2
  name := "add".toList
  beforeOpen := 1
  inner := .listed ⟨1, "a".toList, 1, " i32".toList, by decide, by decide, by decide⟩
    [⟨0, "b".toList, 0, "[ ] u8 ".toList, by decide, by decide, by decide⟩]
  ret := "  []u8 ".toList
  body := "\x7b".toList
  gap_pos := by decide
  is_name := by decide
  ret_ne := by decide
  ret_chars := by decide
  body_start := fun _ hc => (Option.some.inj hc).symm

theorem header_language_spaced :
    spacedLayout.text = "  fn  add ( a : i32,b:[ ] u8 )  []u8 \x7b".toList ∧
      ∃ tree, tree? (spacedLayout.text ++ ['\n']) .header = some tree ∧ tree.readSignature =
        .ok ⟨"add".toList, ["i32".toList, "[ ] u8".toList], "[]u8".toList⟩ :=
  ⟨by decide, (header_language spacedLayout.text (by decide)).2.2 spacedLayout rfl
    ⟨by decide, by decide⟩⟩

/-- A header without a return type: the space before the brace is no type. -/
theorem header_lone_space :
    (∃ l : HeaderLayout, l.text = "fn f() \x7b".toList) ∧
      header? ("fn f() \x7b".toList ++ ['\n']) = none := by
  refine ⟨⟨⟨0, 1, ['f'], 0, .blank 0, [' '], ['\x7b'], by decide, by decide, by decide, by decide,
    fun _ hc => (Option.some.inj hc).symm⟩, rfl⟩, by decide⟩

end AnnotatedZig.Line
