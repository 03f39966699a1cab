import AnnotatedZig.Declaration
import AnnotatedZig.Proofs.Line.Basic
import AnnotatedZig.Proofs.Text.Lines
import AnnotatedZig.Proofs.Text.Number
import AnnotatedZig.Proofs.Text.Pieces
import AnnotatedZig.Proofs.ZigType

/-!
# The table of declarations

Nothing that is printed of a declaration with a proper name holds a line feed. So the table has a line
for each declaration.
-/

set_option autoImplicit false

namespace AnnotatedZig

namespace Declaration

def types (d : Declaration) : List ZigType := d.env.toList ++ d.params

def typesText (d : Declaration) : Text :=
  Text.joinWith ", ".toList (d.types.map ZigType.spelling)

/-- The declarations that a scan makes: a proper name, an arity that counts the parameters, and an
environment handle in its place. -/
structure Proper (d : Declaration) : Prop where
  name : Line.IsName d.name
  arity_eq : d.arity = d.params.length
  env_handle : ∀ e, d.env = some e → e.isEnvHandle = true
  env_first : d.env = none → ∀ t, d.params.head? = some t → t.isEnvHandle = false

theorem splitEnv_types (d : Declaration) (h : d.Proper) :
    ZigType.splitEnv d.types = (d.env, d.params) :=
  ZigType.splitEnv_append d.env d.params h.env_handle h.env_first

theorem not_mem_typesText (d : Declaration) (c : Char) (hsep : c ∉ ", ".toList)
    (hc : Text.isBlank c = true ∨ c ∈ [',', ')', '\x7b']) : c ∉ d.typesText := by
  apply Text.not_mem_joinWith _ _ _ hsep
  intro t ht
  obtain ⟨u, -, rfl⟩ := List.mem_map.mp ht
  exact ZigType.not_mem_spelling u c hc

theorem feed_not_mem_signature (d : Declaration) (h : Line.IsName d.name) : '\n' ∉ d.signature := by
  have hname := Line.not_mem_name d.name h '\n' rfl
  have hspelling := ZigType.not_mem_spelling d.ret '\n' (.inl rfl)
  have htypes : '\n' ∉ Text.joinWith ", ".toList ((d.env.toList ++ d.params).map ZigType.spelling) :=
    not_mem_typesText d '\n' (by decide) (.inl rfl)
  simp only [signature, List.mem_append, List.mem_cons, hname, htypes, hspelling]
  decide

theorem feed_not_mem_options (d : Declaration) : '\n' ∉ d.optionsText := by
  apply Text.not_mem_joinWith _ _ _ (by decide)
  intro t ht
  obtain ⟨o, -, rfl⟩ := List.mem_map.mp ht
  cases o <;> decide

theorem tableLine_eq (d : Declaration) (h : Line.IsName d.name) :
    ∃ l, '\n' ∉ l ∧ l ++ ['\n'] = d.tableLine := by
  have hname := Line.not_mem_name d.name h '\n' rfl
  have harity : '\n' ∉ d.arityText := fun hm => absurd (isDigit_toString _ _ hm) (by decide)
  refine ⟨d.name ++ '/' :: d.arityText ++ ": ".toList ++ d.signature ++
    (if d.options = [] then [] else " [".toList ++ d.optionsText ++ [']']), ?_, rfl⟩
  simp only [List.mem_append, List.mem_cons, hname, harity, feed_not_mem_signature d h]
  split
  · decide
  · simp [feed_not_mem_options d]

theorem splitLines_table (ds : List Declaration) (h : ∀ d ∈ ds, Line.IsName d.name) :
    Text.splitLines (table ds) = ds.map tableLine := by
  rw [table, List.flatMap_def]
  apply Text.splitLines_flatten
  apply Text.areLines_ended
  intro t ht
  obtain ⟨d, hd, rfl⟩ := List.mem_map.mp ht
  exact tableLine_eq d (h d hd)

end Declaration

end AnnotatedZig
