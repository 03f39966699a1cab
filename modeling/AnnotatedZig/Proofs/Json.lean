import AnnotatedZig.Json

/-!
# Values that can be written

A value can be written if the numbers in it can be printed. Of a record of a declaration these are the
arity and the line.
-/

set_option autoImplicit false

namespace AnnotatedZig

namespace Json

theorem isSome_renderItems (js : List Json) :
    (renderItems? js).isSome = true ↔ ∀ j ∈ js, j.render?.isSome = true := by
  induction js with
  | nil => simp [renderItems?]
  | cons j js ih =>
    rw [List.forall_mem_cons, ← ih, renderItems?]
    cases j.render? <;> cases renderItems? js <;> simp

theorem isSome_renderFields (fs : List (String × Json)) :
    (renderFields? fs).isSome = true ↔ ∀ f ∈ fs, f.2.render?.isSome = true := by
  induction fs with
  | nil => simp [renderFields?]
  | cons f fs ih =>
    obtain ⟨name, j⟩ := f
    rw [List.forall_mem_cons, ← ih, renderFields?]
    cases j.render? <;> cases renderFields? fs <;> simp

theorem isSome_array (js : List Json) :
    (array js).render?.isSome = true ↔ ∀ j ∈ js, j.render?.isSome = true := by
  rw [render?, Option.isSome_map, isSome_renderItems]

theorem isSome_object (fs : List (String × Json)) :
    (object fs).render?.isSome = true ↔ ∀ f ∈ fs, f.2.render?.isSome = true := by
  rw [render?, Option.isSome_map, isSome_renderFields]

theorem isSome_int (n : Int) : (int n).render?.isSome = true ↔ Text.Prints n := by
  by_cases h : Text.Prints n
  · simp [render?, Text.printed_of_prints n h, h]
  · simp [render?, Text.printed_eq_none n h, h]

example : (object [("doc", text "a\né"), ("line", array [int 2, null])]).render? =
    some "\x7b\"doc\": \"a\\n\\u00e9\", \"line\": [2, null]\x7d" := rfl

theorem isSome_text (s : String) : (text s).render?.isSome = true := rfl

theorem isSome_ofOption {α : Type} (f : α → Json) (o : Option α) :
    (ofOption f o).render?.isSome = true ↔ ∀ a, o = some a → (f a).render?.isSome = true := by
  cases o with
  | none => simp [ofOption, render?]
  | some a => simp [ofOption]

end Json

theorem isSome_textJson (t : Text) : (Text.json t).render?.isSome = true := rfl

theorem isSome_declaration (d : Declaration) : d.json.render?.isSome = true ↔
    Text.Prints d.arity ∧ ∀ l, d.loc = some l → Text.Prints l.line := by
  simp only [Declaration.json, Json.isSome_object, List.forall_mem_cons, List.not_mem_nil,
    Json.isSome_array, Json.isSome_ofOption, Json.isSome_int, List.mem_map, ZigType.json,
    isSome_textJson, implies_true, forall_exists_index, and_imp, forall_apply_eq_imp_iff₂, true_and,
    and_true, false_implies]

theorem isSome_successRecord (ds : List Declaration) (h : ∀ d ∈ ds, Text.Prints d.arity) :
    (Command.successRecord ds).render?.isSome = true ↔
      ∀ d ∈ ds, ∀ l, d.loc = some l → Text.Prints l.line := by
  have hzero : (Json.int 0).render?.isSome = true := (Json.isSome_int 0).mpr (by decide)
  simp only [Command.successRecord, Json.isSome_object, List.forall_mem_cons, Json.isSome_array,
    List.forall_mem_map, isSome_declaration, List.not_mem_nil, false_implies, implies_true, and_true,
    hzero, true_and]
  exact ⟨fun hd d hmem => (hd d hmem).2, fun hl d hmem => ⟨h d hmem, hl d hmem⟩⟩

end AnnotatedZig
