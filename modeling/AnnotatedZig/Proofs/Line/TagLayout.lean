import AnnotatedZig.Proofs.Line.Forms
import AnnotatedZig.Proofs.Line.Layout
import AnnotatedZig.Proofs.Text.Number

/-!
# Tags, laid out

Between the pieces of a tag any number of spaces may stand, but an option needs one in front of it.
A line has at most one layout as a tag, and it is read as a tag exactly if it has one; the tag is then
what the layout says, unless its digits are too many to be read as a number.
-/

set_option autoImplicit false

namespace AnnotatedZig.Line

structure OptionLayout where
  gap : Nat
  option : ExecOption
  gap_pos : 0 < gap

def OptionLayout.text (o : OptionLayout) : Text := spaces o.gap ++ o.option.spelling

/-- A tag: the slashes, `nif:`, the name and the arity with a slash between them, and the options. -/
structure TagLayout where
  indent : Nat
  beforeMark : Nat
  beforeName : Nat
  name : Text
  beforeSlash : Nat
  beforeDigits : Nat
  digits : Text
  options : List OptionLayout
  trailing : Nat
  is_name : IsName name
  digits_ne : digits ≠ []
  digits_chars : ∀ c ∈ digits, c.isDigit = true

namespace TagLayout

def optionsText (os : List OptionLayout) (trailing : Nat) : Text :=
  os.flatMap OptionLayout.text ++ spaces trailing

def text (l : TagLayout) : Text :=
  spaces l.indent ++ ('/' :: '/' :: '/' :: (spaces l.beforeMark ++
    ('n' :: 'i' :: 'f' :: ':' :: (spaces l.beforeName ++ (l.name ++ (spaces l.beforeSlash ++
      ('/' :: (spaces l.beforeDigits ++ (l.digits ++ optionsText l.options l.trailing)))))))))

def tag (l : TagLayout) : Tag := ⟨l.name, l.digits, l.options.map OptionLayout.option⟩

end TagLayout

theorem words_spaces (n : Nat) (s : Text) : Text.words (spaces n ++ s) = Text.words s := by
  induction n with
  | zero => rfl
  | succ n ih =>
    have hspace := Text.words_append_space [] (spaces n ++ s)
    rwa [ih] at hspace

theorem words_append (w s : Text) (hne : w ≠ []) (hw : ' ' ∉ w)
    (hs : ∀ c, s.head? = some c → c = ' ') : Text.words (w ++ s) = w :: Text.words s := by
  cases s with
  | nil => simpa [Text.words, Text.cut_nil] using Text.words_of_not_mem w hne hw
  | cons c s =>
    obtain rfl := hs c rfl
    have hspace := Text.words_append_space [] s
    rw [List.nil_append] at hspace
    rw [Text.words_append_space, Text.words_of_not_mem w hne hw, hspace]
    rfl

theorem isName_spelling (o : ExecOption) : IsName o.spelling := by
  cases o <;> decide

theorem space_not_mem_spelling (o : ExecOption) : ' ' ∉ o.spelling :=
  not_mem_name o.spelling (isName_spelling o) ' ' rfl

theorem ofSpelling_eq_some_iff (w : Text) (o : ExecOption) :
    ExecOption.ofSpelling? w = some o ↔ w = o.spelling := by
  constructor
  · intro h
    simpa [eq_comm] using List.find?_some h
  · rintro rfl
    cases o <;> decide

theorem spelling_injective (o p : ExecOption) (h : o.spelling = p.spelling) : o = p := by
  have ho := (ofSpelling_eq_some_iff o.spelling o).mpr rfl
  have hp := (ofSpelling_eq_some_iff o.spelling p).mpr h
  exact Option.some.inj (ho.symm.trans hp)

namespace TagLayout

theorem optionsText_cons (o : OptionLayout) (os : List OptionLayout) (n : Nat) :
    optionsText (o::os) n = spaces o.gap ++ (o.option.spelling ++ optionsText os n) := by
  simp [optionsText, OptionLayout.text]

theorem head_optionsText (os : List OptionLayout) (n : Nat) :
    ∀ c, (optionsText os n).head? = some c → c = ' ' := by
  intro c hc
  cases os with
  | nil => exact mem_spaces n c (List.mem_of_mem_head? hc)
  | cons o os =>
    obtain ⟨k, hk⟩ := Nat.exists_eq_succ_of_ne_zero (Nat.ne_of_gt o.gap_pos)
    simpa [optionsText_cons, hk, spaces, List.replicate_succ, eq_comm] using hc

theorem words_optionsText (os : List OptionLayout) (n : Nat) :
    Text.words (optionsText os n) = os.map fun o => o.option.spelling := by
  induction os with
  | nil =>
    have hspaces := words_spaces n []
    rwa [List.append_nil] at hspaces
  | cons o os ih =>
    rw [optionsText_cons, words_spaces, words_append _ _ (isName_spelling o.option).ne
      (space_not_mem_spelling o.option) (head_optionsText os n), ih, List.map_cons]

theorem words_cases (s : Text) :
    (∃ n, s = spaces n ∧ Text.words s = []) ∨
      ∃ n w r, s = spaces n ++ (w ++ r) ∧ w ≠ [] ∧ ' ' ∉ w ∧
        (∀ c, r.head? = some c → c = ' ') ∧ Text.words s = w :: Text.words r := by
  obtain ⟨n, hn⟩ := spaces_of_skipSpaces s
  have hwords : Text.words s = Text.words (skipSpaces s) :=
    (congrArg Text.words hn).trans (words_spaces n (skipSpaces s))
  have hfirst := List.head?_dropWhile_not (· = ' ') s
  rw [← skipSpaces] at hfirst
  generalize skipSpaces s = u at hn hwords hfirst
  cases u with
  | nil => exact .inl ⟨n, by rw [hn, List.append_nil], hwords⟩
  | cons c u =>
    have hc : c ≠ ' ' := by simpa using hfirst
    have hrun : run? (· ≠ ' ') (c::u) =
        some (c :: u.takeWhile (· ≠ ' '), u.dropWhile (· ≠ ' ')) := by simp [run?, hc]
    obtain ⟨hne, hw, hr, hsplit⟩ := (run_eq_some_iff _ _ _ _).mp hrun
    have hspace : ' ' ∉ c :: u.takeWhile (· ≠ ' ') := fun hm => by simpa using hw ' ' hm
    have hend : ∀ d, (u.dropWhile (· ≠ ' ')).head? = some d → d = ' ' := fun d hd => by
      simpa using hr d hd
    refine .inr ⟨n, _, _, hsplit ▸ hn, hne, hspace, hend, ?_⟩
    rw [hwords, hsplit, words_append _ _ hne hspace hend]

theorem optionsText_of_words (os : List ExecOption) (s : Text)
    (hs : ∀ c, s.head? = some c → c = ' ') (h : Text.words s = os.map ExecOption.spelling) :
    ∃ ls n, optionsText ls n = s ∧ ls.map OptionLayout.option = os := by
  induction os generalizing s with
  | nil =>
    rcases words_cases s with ⟨n, rfl, -⟩ | ⟨_, _, _, _, _, _, _, hwords⟩
    · exact ⟨[], n, rfl, rfl⟩
    · simp [hwords] at h
  | cons o os ih =>
    rcases words_cases s with ⟨_, _, hwords⟩ | ⟨n, w, r, hsplit, hne, hw, hr, hwords⟩
    · simp [hwords] at h
    · rw [hwords, List.map_cons, List.cons.injEq] at h
      obtain ⟨rfl, hrest⟩ := h
      obtain ⟨ls, k, rfl, rfl⟩ := ih r hr hrest
      have hgap : 0 < n := by
        obtain ⟨c, t, hc⟩ := List.exists_cons_of_ne_nil hne
        apply Nat.pos_of_ne_zero
        rintro rfl
        obtain rfl := hs c (by rw [hsplit, hc]; rfl)
        simp [hc] at hw
      exact ⟨⟨n, o, hgap⟩::ls, k, by rw [optionsText_cons, hsplit], rfl⟩

theorem mapM_spelling_iff (ws : List Text) (os : List ExecOption) :
    ws.mapM ExecOption.ofSpelling? = some os ↔ ws = os.map ExecOption.spelling := by
  induction ws generalizing os with
  | nil => cases os <;> simp
  | cons w ws ih =>
    rw [List.mapM_cons]
    simp only [Option.bind_eq_bind, Option.bind_eq_some_iff, Option.pure_def, Option.some.injEq,
      ofSpelling_eq_some_iff, ih]
    cases os with
    | nil => simp
    | cons o os => grind

theorem options_eq_some_iff (s : Text) (os : List ExecOption) :
    options? s = some os ↔
      ∃ ls n, optionsText ls n = s ∧ ls.map OptionLayout.option = os := by
  have hfirst : s.head?.all (· = ' ') = true ↔ ∀ c, s.head? = some c → c = ' ' := by
    simp [Option.all_eq_true]
  rw [options?, Option.ite_none_right_eq_some, mapM_spelling_iff, hfirst]
  constructor
  · rintro ⟨hs, hwords⟩
    exact optionsText_of_words os s hs hwords
  · rintro ⟨ls, n, rfl, rfl⟩
    exact ⟨head_optionsText ls n, by rw [words_optionsText, List.map_map]; rfl⟩

theorem optionsText_injective (os ps : List OptionLayout) (m n : Nat)
    (h : optionsText os m = optionsText ps n) : os = ps ∧ m = n := by
  have hwords := congrArg Text.words h
  rw [words_optionsText, words_optionsText] at hwords
  -- The words give the options, and then the gaps are peeled off in front of them.
  induction os generalizing ps with
  | nil =>
    obtain rfl := List.map_eq_nil_iff.mp hwords.symm
    exact ⟨rfl, by simpa [optionsText, spaces] using congrArg List.length h⟩
  | cons o os ih =>
    cases ps with
    | nil => simp at hwords
    | cons p ps =>
      simp only [List.map_cons, List.cons.injEq] at hwords
      obtain ⟨hspelling, hwords⟩ := hwords
      rw [optionsText_cons, optionsText_cons, hspelling] at h
      obtain ⟨hgap, hrest⟩ := spaces_unique _ _ _ _
        (head_name_append _ _ (isName_spelling p.option))
        (head_name_append _ _ (isName_spelling p.option)) h
      obtain ⟨rfl, rfl⟩ := ih ps (List.append_cancel_left hrest) hwords
      have hoption := spelling_injective o.option p.option hspelling
      cases o
      cases p
      simp_all

theorem head_digits_append (l : TagLayout) (s : Text) : (l.digits ++ s).head? ≠ some ' ' :=
  head_run_append Char.isDigit l.digits s rfl l.digits_ne l.digits_chars

theorem digits_end (l : TagLayout) :
    ∀ c, (optionsText l.options l.trailing).head? = some c → c.isDigit = false := by
  intro c hc
  rw [head_optionsText _ _ c hc]
  rfl

theorem text_injective (l m : TagLayout) (h : l.text = m.text) : l = m := by
  obtain ⟨hindent, hslashes⟩ := spaces_unique _ _ _ _ (by simp) (by simp) h
  simp only [List.cons.injEq, true_and] at hslashes
  obtain ⟨hmark, hnif⟩ := spaces_unique _ _ _ _ (by simp) (by simp) hslashes
  simp only [List.cons.injEq, true_and] at hnif
  obtain ⟨hbefore, hname⟩ := spaces_unique _ _ _ _ (head_name_append _ _ l.is_name)
    (head_name_append _ _ m.is_name) hnif
  obtain ⟨hname, hslash⟩ := run_unique isNameChar _ _ _ _ l.is_name.chars m.is_name.chars
    (name_ends _ '/' _ rfl) (name_ends _ '/' _ rfl) hname
  obtain ⟨hslash, harity⟩ := spaces_unique _ _ _ _ (by simp) (by simp) hslash
  obtain ⟨hgap, hdigits⟩ := spaces_unique _ _ _ _ (l.head_digits_append _)
    (m.head_digits_append _) (List.cons.inj harity).2
  obtain ⟨hdigits, hoptions⟩ := run_unique Char.isDigit _ _ _ _ l.digits_chars m.digits_chars
    l.digits_end m.digits_end hdigits
  obtain ⟨hoptions, htrailing⟩ := optionsText_injective _ _ _ _ hoptions
  cases l
  cases m
  simp_all

theorem ofBody_eq_some_iff (t : Text) (x : Tag) :
    Tag.ofBody? t = some x ↔ ∃ l : TagLayout, l.text = t ∧ l.tag = x := by
  have hnif : "nif:".toList = ['n', 'i', 'f', ':'] := rfl
  constructor
  · intro hread
    simp only [Tag.ofBody?, Option.bind_eq_bind, Option.bind_eq_some_iff, Prod.exists, hnif,
      afterDocMark_eq_some_iff, word_spaces_iff _ 'n' _ _ (by decide : 'n' ≠ ' '),
      name_eq_some_iff, mark_eq_some_iff '/' _ _ (by decide : '/' ≠ ' '),
      run_spaces_iff Char.isDigit _ _ _ rfl, options_eq_some_iff, Option.pure_def,
      Option.some.injEq] at hread
    obtain ⟨_, ⟨-, indent, rfl⟩, _, ⟨beforeMark, rfl⟩, name, _, ⟨is_name, -, beforeName, rfl⟩, _,
      ⟨beforeSlash, rfl⟩, digits, _, ⟨digits_ne, digits_chars, -, beforeDigits, rfl⟩, _,
      ⟨options, trailing, rfl, rfl⟩, rfl⟩ := hread
    exact ⟨⟨indent, beforeMark, beforeName, name, beforeSlash, beforeDigits, digits, options,
      trailing, is_name, digits_ne, digits_chars⟩, rfl, rfl⟩
  · rintro ⟨l, rfl, rfl⟩
    let behind := optionsText l.options l.trailing
    let arity := spaces l.beforeDigits ++ (l.digits ++ behind)
    let named := spaces l.beforeSlash ++ '/' :: arity
    let tagged := spaces l.beforeName ++ (l.name ++ named)
    let documented := spaces l.beforeMark ++ ('n' :: 'i' :: 'f' :: ':' :: tagged)
    have hslash : documented.head? ≠ some '/' := by
      intro hfirst
      rcases head_spaces_append _ _ _ _ hfirst with hc | hc <;> simp at hc
    have hdoc : afterDocMark? l.text = some documented :=
      (afterDocMark_eq_some_iff _ _).mpr ⟨hslash, l.indent, rfl⟩
    have hmark : word? ['n', 'i', 'f', ':'] (skipSpaces documented) = some tagged :=
      (word_spaces_iff ['i', 'f', ':'] 'n' _ _ (by decide)).mpr ⟨l.beforeMark, rfl⟩
    have hname : name? tagged = some (l.name, named) :=
      (name_eq_some_iff _ _ _).mpr ⟨l.is_name, name_ends l.beforeSlash '/' arity rfl,
        l.beforeName, rfl⟩
    have harity : mark? '/' named = some arity :=
      (mark_eq_some_iff '/' _ _ (by decide)).mpr ⟨l.beforeSlash, rfl⟩
    have hdigits : run? Char.isDigit (skipSpaces arity) = some (l.digits, behind) :=
      (run_spaces_iff Char.isDigit _ _ _ rfl).mpr ⟨l.digits_ne, l.digits_chars, l.digits_end,
        l.beforeDigits, rfl⟩
    have hoptions : options? behind = some (l.options.map OptionLayout.option) :=
      (options_eq_some_iff _ _).mpr ⟨l.options, l.trailing, rfl, rfl⟩
    simp only [Tag.ofBody?, Option.bind_eq_bind, hnif, hdoc, Option.bind_some, hmark, hname,
      harity, hdigits, hoptions]
    rfl

end TagLayout

theorem prints_arity (text : Text) (t : Tag) (h : tag? text = some t)
    (length : t.digits.length ≤ Text.digitLimit) : Text.Prints (Nat.ofDigitChars 10 t.digits 0) := by
  obtain ⟨body, -, hread⟩ := Option.bind_eq_some_iff.mp h
  obtain ⟨l, -, rfl⟩ := (TagLayout.ofBody_eq_some_iff body t).mp hread
  exact Text.prints_ofDigitChars l.digits l.digits_chars length

/-- The language of tag lines, and the tag that the tree of one is read to. Nothing can go wrong with
a line of the language but that its digits are too many. -/
theorem tag_language (t : Text) (h : '\n' ∉ t) :
    ((∃ x, tag? (t ++ ['\n']) = some x) ↔ ∃ l : TagLayout, l.text = t) ∧
      (∀ l m : TagLayout, l.text = t → m.text = t → l = m) ∧
      ∀ l : TagLayout, l.text = t → ∃ tree, tree? (t ++ ['\n']) .tag = some tree ∧
        tree.readTag =
          if l.digits.length ≤ Text.digitLimit then
            .ok ⟨l.name, Nat.ofDigitChars 10 l.digits 0, l.options.map OptionLayout.option⟩
          else .error (.numeralTooLong l.digits.length) := by
  have hread (x : Tag) : tag? (t ++ ['\n']) = some x ↔ ∃ l : TagLayout, l.text = t ∧ l.tag = x := by
    rw [tag?, body_ended t h, Option.bind_some, TagLayout.ofBody_eq_some_iff]
  refine ⟨?_, fun l m hl hm => TagLayout.text_injective l m (hl.trans hm.symm), ?_⟩
  · constructor
    · rintro ⟨x, hx⟩
      obtain ⟨l, hl, -⟩ := (hread x).mp hx
      exact ⟨l, hl⟩
    · rintro ⟨l, hl⟩
      exact ⟨l.tag, (hread l.tag).mpr ⟨l, hl, rfl⟩⟩
  · intro l hl
    have hx := (hread l.tag).mpr ⟨l, hl, rfl⟩
    refine ⟨l.tag.tree, by rw [tree?, hx, Option.map_some], ?_⟩
    rw [readTag_tree, AnnotatedZig.Tag.ofLine, Text.readNumeral]
    by_cases length : l.digits.length ≤ Text.digitLimit
    · rw [TagLayout.tag, if_pos length, if_pos length]
      rfl
    · rw [TagLayout.tag, if_neg length, if_neg length]
      rfl

def spacedTag : TagLayout where
  indent := 2
  beforeMark := 0
  beforeName := 2
  name := "add_2".toList
  beforeSlash := 1
  beforeDigits := 1
  digits := ['0', '0', '7']
  options := [⟨1, .long, Nat.one_pos⟩, ⟨2, .dirty, Nat.two_pos⟩, ⟨1, .long, Nat.one_pos⟩]
  trailing := 1
  is_name := by decide
  digits_ne := List.cons_ne_nil _ _
  digits_chars := List.all_eq_true.mp rfl

theorem tag_language_spaced :
    spacedTag.text = "  ///nif:  add_2 / 007 long  dirty long ".toList ∧
      ∃ tree, tree? (spacedTag.text ++ ['\n']) .tag = some tree ∧
        tree.readTag = .ok ⟨"add_2".toList, 7, [.long, .dirty, .long]⟩ :=
  ⟨by decide, (tag_language spacedTag.text (by decide)).2.2 spacedTag rfl⟩

end AnnotatedZig.Line
