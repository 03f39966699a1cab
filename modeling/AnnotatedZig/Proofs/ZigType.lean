import AnnotatedZig.ZigType
import AnnotatedZig.Proofs.Text.Trim

/-!
# Canonical spellings

The canonical spelling of a type is one word without marks of a parameter list, and it is read as
the type that it spells.
-/

set_option autoImplicit false

namespace AnnotatedZig.ZigType

theorem spelling_ne_nil (t : ZigType) : t.spelling ≠ [] := by
  cases t with
  | scalar s => cases s <;> decide
  | slice e => exact List.cons_ne_nil _ _
  | cString => decide

theorem spelling_chars (t : ZigType) :
    ∀ c ∈ t.spelling, Text.isBlank c = false ∧ c ∉ [',', ')', '\x7b'] := by
  have hall : t.spelling.all (fun c => !Text.isBlank c && !List.elem c [',', ')', '\x7b']) := by
    cases t with
    | scalar s => cases s <;> rfl
    | slice e => cases e <;> rfl
    | cString => rfl
  intro c hc
  simpa using List.all_eq_true.mp hall c hc

theorem not_mem_spelling (t : ZigType) (c : Char)
    (hc : Text.isBlank c = true ∨ c ∈ [',', ')', '\x7b']) : c ∉ t.spelling := by
  intro hm
  obtain ⟨hblank, hmark⟩ := spelling_chars t c hm
  rcases hc with hc | hc
  · simp [hc] at hblank
  · exact hmark hc

theorem read_spelling (t : ZigType) : read? t.spelling = some t := by
  cases t with
  | scalar s => cases s <;> rfl
  | slice e => cases e <;> rfl
  | cString => rfl

theorem spelling_injective : Function.Injective spelling := by
  intro t u h
  have ht := read_spelling t
  rw [h, read_spelling u] at ht
  exact (Option.some.inj ht).symm

theorem trim_padded (t : ZigType) (a b : Text) (ha : ∀ c ∈ a, Text.isBlank c = true)
    (hb : ∀ c ∈ b, Text.isBlank c = true) : Text.trim (a ++ (t.spelling ++ b)) = t.spelling :=
  Text.trim_pad a t.spelling b ha (fun c hc => (spelling_chars t c hc).1) hb

theorem splitEnv_append (env : Option ZigType) (ts : List ZigType)
    (henv : ∀ e, env = some e → e.isEnvHandle = true)
    (hnone : env = none → ∀ t, ts.head? = some t → t.isEnvHandle = false) :
    splitEnv (env.toList ++ ts) = (env, ts) := by
  cases env with
  | some e => simp [splitEnv, henv e rfl]
  | none =>
    cases ts with
    | nil => rfl
    | cons t ts => simp [splitEnv, hnone rfl t rfl]

theorem splitEnv_parts (ts : List ZigType) :
    (∀ e, (splitEnv ts).1 = some e → e.isEnvHandle = true) ∧
      ((splitEnv ts).1 = none → ∀ t, (splitEnv ts).2.head? = some t → t.isEnvHandle = false) := by
  cases ts with
  | nil => simp [splitEnv]
  | cons t ts => by_cases handle : t.isEnvHandle = true <;> simp [splitEnv, handle]

end AnnotatedZig.ZigType
