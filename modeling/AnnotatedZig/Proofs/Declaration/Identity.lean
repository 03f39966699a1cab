import AnnotatedZig.Proofs.Declaration
import AnnotatedZig.Proofs.Line.TagLayout
import AnnotatedZig.Proofs.Scan.Naming

/-!
# What the table tells apart

The table tells all of a declaration but its documentation and its place. A signature shows the
environment handle as if it were a parameter; since no parameter list of a declaration without a handle
starts with one, it is known for what it is.
-/

set_option autoImplicit false

namespace AnnotatedZig

theorem ZigType.joined_injective (ts us : List ZigType)
    (h : Text.joinWith ", ".toList (ts.map spelling) = Text.joinWith ", ".toList (us.map spelling)) :
    ts = us := by
  have hpieces (ts : List ZigType) : ∀ t ∈ ts.map spelling, t ≠ [] ∧ ',' ∉ t := by
    intro t ht
    obtain ⟨u, -, rfl⟩ := List.mem_map.mp ht
    exact ⟨spelling_ne_nil u, not_mem_spelling u ',' (.inr (by simp))⟩
  apply List.map_injective_iff.mpr spelling_injective
  exact Text.joinWith_injective ',' [' '] _ _ (by decide) (hpieces ts) (hpieces us) h

theorem ExecOption.joined_injective (os ps : List ExecOption)
    (h : Text.joinWith [' '] (os.map spelling) = Text.joinWith [' '] (ps.map spelling)) :
    os = ps := by
  have hpieces (os : List ExecOption) : ∀ t ∈ os.map spelling, t ≠ [] ∧ ' ' ∉ t := by
    intro t ht
    obtain ⟨o, -, rfl⟩ := List.mem_map.mp ht
    exact ⟨(Line.isName_spelling o).ne, Line.space_not_mem_spelling o⟩
  apply List.map_injective_iff.mpr Line.spelling_injective
  exact Text.joinWith_injective ' ' [] _ _ (by simp) (hpieces os) (hpieces ps) h

namespace Declaration

/-- The declarations are one but for documentation and place. -/
structure Alike (d e : Declaration) : Prop where
  name : d.name = e.name
  arity : d.arity = e.arity
  env : d.env = e.env
  params : d.params = e.params
  ret : d.ret = e.ret
  options : d.options = e.options

theorem arityText_injective (d e : Declaration) (h : d.arityText = e.arityText) :
    d.arity = e.arity := by
  rw [arityText, arityText, toList_toString, toList_toString] at h
  calc
    d.arity = Nat.ofDigitChars 10 (Nat.toDigits 10 d.arity) 0 := Nat.ofDigitChars_ten_toDigits.symm
    _ = Nat.ofDigitChars 10 (Nat.toDigits 10 e.arity) 0 := by rw [h]
    _ = e.arity := Nat.ofDigitChars_ten_toDigits

theorem signature_append (d : Declaration) (s : Text) :
    d.signature ++ s = d.name ++ '(' :: (d.typesText ++ ')' :: ' ' :: (d.ret.spelling ++ s)) := by
  simp [signature, typesText, types]

theorem signature_parts (d e : Declaration) (s t : Text) (hd : Line.IsName d.name)
    (he : Line.IsName e.name) (hs : ∀ c, s.head? = some c → Text.isBlank c = true)
    (ht : ∀ c, t.head? = some c → Text.isBlank c = true)
    (h : d.signature ++ s = e.signature ++ t) :
    d.name = e.name ∧ d.types = e.types ∧ d.ret = e.ret ∧ s = t := by
  have hclose (d : Declaration) : ∀ c ∈ d.typesText, decide (c ≠ ')') = true := by
    intro c hc
    simpa using ne_of_mem_of_not_mem hc (not_mem_typesText d ')' (by decide) (by simp))
  have hword (t : ZigType) : ∀ c ∈ t.spelling, (!Text.isBlank c) = true := by
    intro c hc
    simp [(ZigType.spelling_chars t c hc).1]
  rw [signature_append, signature_append] at h
  obtain ⟨hname, h⟩ := Line.run_mark_unique Line.isNameChar '(' _ _ _ _ hd.chars he.chars rfl h
  obtain ⟨htypes, h⟩ := Line.run_mark_unique _ ')' _ _ _ _ (hclose d) (hclose e) rfl h
  obtain ⟨hret, hst⟩ := Line.run_unique _ _ _ s t (hword d.ret) (hword e.ret)
    (fun c hc => by simp [hs c hc]) (fun c hc => by simp [ht c hc]) (List.cons.inj h).2
  exact ⟨hname, ZigType.joined_injective _ _ htypes, ZigType.spelling_injective hret, hst⟩

theorem types_injective (d e : Declaration) (hd : d.Proper) (he : e.Proper)
    (h : d.types = e.types) : d.env = e.env ∧ d.params = e.params := by
  have hsplit := congrArg ZigType.splitEnv h
  rw [splitEnv_types d hd, splitEnv_types e he] at hsplit
  exact Prod.mk.inj hsplit

theorem signature_injective (d e : Declaration) (hd : d.Proper) (he : e.Proper)
    (h : d.signature = e.signature) :
    d.name = e.name ∧ d.env = e.env ∧ d.params = e.params ∧ d.ret = e.ret := by
  have happend : d.signature ++ [] = e.signature ++ [] := by rw [h]
  obtain ⟨hname, htypes, hret, -⟩ :=
    signature_parts d e [] [] hd.name he.name (by simp) (by simp) happend
  obtain ⟨henv, hparams⟩ := types_injective d e hd he htypes
  exact ⟨hname, henv, hparams, hret⟩

/-- A handle among the parameters of a declaration without one would look the same. -/
example : signature ⟨['f'], 0, [], .scalar .void, none, [], some (.scalar .beamEnv), none⟩ =
    signature ⟨['f'], 1, [.scalar .beamEnv], .scalar .void, none, [], none, none⟩ := rfl

def suffix (d : Declaration) : Text :=
  (if d.options = [] then [] else " [".toList ++ d.optionsText ++ [']']) ++ ['\n']

theorem head_suffix (d : Declaration) (c : Char) (h : d.suffix.head? = some c) :
    Text.isBlank c = true := by
  unfold suffix at h
  split at h <;> obtain rfl := Option.some.inj h <;> rfl

theorem suffix_injective (d e : Declaration) (h : d.suffix = e.suffix) : d.options = e.options := by
  unfold suffix at h
  have h := List.append_cancel_right h
  split at h
  · next none =>
    split at h
    · next none' => rw [none, none']
    · exact absurd h (by simp)
  · split at h
    · exact absurd h (by simp)
    · exact ExecOption.joined_injective _ _ (List.append_cancel_left (List.append_cancel_right h))

theorem tableLine_eq_parts (d : Declaration) :
    d.tableLine = d.name ++ '/' :: (d.arityText ++ ':' :: ' ' :: (d.signature ++ d.suffix)) := by
  simp [tableLine, suffix]

theorem tableLine_injective (d e : Declaration) (hd : d.Proper) (he : e.Proper)
    (h : d.tableLine = e.tableLine) : d.Alike e := by
  rw [tableLine_eq_parts, tableLine_eq_parts] at h
  obtain ⟨-, h⟩ := Line.run_mark_unique Line.isNameChar '/' _ _ _ _ hd.name.chars he.name.chars rfl h
  obtain ⟨harity, h⟩ := Line.run_mark_unique Char.isDigit ':' _ _ _ _ (isDigit_toString d.arity)
    (isDigit_toString e.arity) rfl h
  obtain ⟨hname, htypes, hret, hsuffix⟩ := signature_parts d e d.suffix e.suffix hd.name he.name
    (head_suffix d) (head_suffix e) (List.cons.inj h).2
  obtain ⟨henv, hparams⟩ := types_injective d e hd he htypes
  exact ⟨hname, arityText_injective d e harity, henv, hparams, hret, suffix_injective d e hsuffix⟩

theorem tableLine_congr (d e : Declaration) (h : d.Alike e) : d.tableLine = e.tableLine := by
  rw [tableLine, tableLine, signature, signature, arityText, arityText, optionsText, optionsText,
    h.name, h.arity, h.env, h.params, h.ret, h.options]

theorem tableLines_injective (ds es : List Declaration) (hds : ∀ d ∈ ds, d.Proper)
    (hes : ∀ e ∈ es, e.Proper) (h : ds.map tableLine = es.map tableLine) :
    List.Forall₂ Alike ds es := by
  induction ds generalizing es with
  | nil =>
    obtain rfl := List.map_eq_nil_iff.mp h.symm
    exact .nil
  | cons d ds ih =>
    cases es with
    | nil => simp at h
    | cons e es =>
      rw [List.forall_mem_cons] at hds hes
      obtain ⟨hline, hrest⟩ := List.cons.inj h
      exact .cons (tableLine_injective d e hds.1 hes.1 hline) (ih es hds.2 hes.2 hrest)

theorem table_congr (ds es : List Declaration) (h : List.Forall₂ Alike ds es) :
    table ds = table es := by
  induction h with
  | nil => rfl
  | @cons d e ds es alike _ ih =>
    rw [table, table] at ih ⊢
    rw [List.flatMap_cons, List.flatMap_cons, tableLine_congr d e alike, ih]

theorem table_eq_iff (ds es : List Declaration) (hds : ∀ d ∈ ds, d.Proper)
    (hes : ∀ e ∈ es, e.Proper) : table ds = table es ↔ List.Forall₂ Alike ds es := by
  constructor
  · intro h
    have hlines := congrArg Text.splitLines h
    rw [splitLines_table ds (fun d hd => (hds d hd).name),
      splitLines_table es (fun e he => (hes e he).name)] at hlines
    exact tableLines_injective ds es hds hes hlines
  · exact table_congr ds es

theorem proper_of_effect (l : SourceLine) (c : Context) (p : Progress)
    (effect : Context.Effect l c p) : ∀ d ∈ p.declarations, d.Proper := by
  intro d hd
  cases effect with
  | @declare p h ts ret e waits form name_eq known ret_known arity_eq made =>
    obtain rfl : e = d := by
      simpa [Progress.declarations, Item.declaration?, eq_comm] using hd
    have hname := Line.isName_of_header _ h form
    rw [name_eq] at hname
    obtain ⟨hhandle, hfirst⟩ := ZigType.splitEnv_parts (c.params ++ ts)
    subst made
    exact ⟨hname, arity_eq.symm, hhandle, hfirst⟩
  | pass => simp [Progress.declarations, Item.declaration?] at hd
  | _ => simp [Progress.declarations, Progress.fail] at hd

theorem proper_extract (code : Text) (file : String) (line : Int) (o : Outcome)
    (h : extract code file line = .ok o) : ∀ d ∈ o.declarations, d.Proper := by
  intro d hd
  obtain ⟨l, c, hl⟩ := step_of_extract code file line o h d hd
  exact proper_of_effect l c _ (Context.effect_step l c) d hl

/-- The table identifies the declarations of a scan: two lists of them have one table if and only if
they are equally long and alike one by one. The signature identifies name, environment handle, parameters
and return type. Every scan makes only such declarations. -/
theorem table_identifies :
    (∀ ds es : List Declaration, (∀ d ∈ ds, d.Proper) → (∀ e ∈ es, e.Proper) →
      (table ds = table es ↔ List.Forall₂ Alike ds es)) ∧
    (∀ d e : Declaration, d.Proper → e.Proper → d.signature = e.signature →
      d.name = e.name ∧ d.env = e.env ∧ d.params = e.params ∧ d.ret = e.ret) ∧
    (∀ code file line o, extract code file line = .ok o → ∀ d ∈ o.declarations, d.Proper) :=
  ⟨table_eq_iff, signature_injective, proper_extract⟩

end Declaration

end AnnotatedZig
