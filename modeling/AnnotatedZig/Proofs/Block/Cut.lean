import AnnotatedZig.Proofs.Block.Basic

/-!
# How a source text falls into blocks

Nothing is lost, every block but the last has an ending, and blocks with an ending can be cut off
from the front one by one. A run of documentation lines at the front stays together.
-/

set_option autoImplicit false

namespace AnnotatedZig.Block

def Ended (b : Block) : Prop :=
  (∀ l ∈ b.docs, l.isDoc = true) ∧ ∃ s, b.ending = some s ∧ s.isDoc = false

theorem cut_doc (l : SourceLine) (ls : List SourceLine) (h : l.isDoc = true) :
    cut (l::ls) = addDoc l (cut ls) := by
  rw [cut, if_pos h]

theorem cut_ending (l : SourceLine) (ls : List SourceLine) (h : l.isDoc = false) :
    cut (l::ls) = ⟨[], some l⟩ :: cut ls := by
  rw [cut, if_neg (by simp [h])]

theorem cut_shape (ls : List SourceLine) :
    ∃ bs ds, cut ls = bs ++ [⟨ds, none⟩] ∧ (∀ b ∈ bs, b.Ended) ∧ ∀ l ∈ ds, l.isDoc = true := by
  induction ls with
  | nil => exact ⟨[], [], rfl, by simp, by simp⟩
  | cons l ls ih =>
    obtain ⟨bs, ds, hcut, hbs, hds⟩ := ih
    cases hl : l.isDoc with
    | false =>
      have hended : ∀ b ∈ (⟨[], some l⟩ : Block)::bs, b.Ended :=
        List.forall_mem_cons.mpr ⟨⟨by simp, l, rfl, hl⟩, hbs⟩
      exact ⟨⟨[], some l⟩::bs, ds, by simp [cut_ending l ls hl, hcut], hended, hds⟩
    | true =>
      rw [cut_doc l ls hl, hcut]
      cases bs with
      | nil =>
        exact ⟨[], l::ds, rfl, by simp, List.forall_mem_cons.mpr ⟨hl, hds⟩⟩
      | cons b bs =>
        rw [List.forall_mem_cons] at hbs
        obtain ⟨⟨hdocs, hend⟩, hbs⟩ := hbs
        have hfirst : Ended ⟨l::b.docs, b.ending⟩ :=
          ⟨List.forall_mem_cons.mpr ⟨hl, hdocs⟩, hend⟩
        exact ⟨⟨l::b.docs, b.ending⟩::bs, ds, rfl, List.forall_mem_cons.mpr ⟨hfirst, hbs⟩, hds⟩

theorem cut_ne_nil (ls : List SourceLine) : cut ls ≠ [] := by
  obtain ⟨bs, ds, hcut, -⟩ := cut_shape ls
  simp [hcut]

theorem flatMap_lines_addDoc (l : SourceLine) (bs : List Block) :
    (addDoc l bs).flatMap lines = l :: bs.flatMap lines := by
  cases bs <;> simp [addDoc, lines]

theorem flatMap_lines_cut (ls : List SourceLine) : (cut ls).flatMap lines = ls := by
  induction ls with
  | nil => rfl
  | cons l ls ih =>
    cases hl : l.isDoc with
    | false => simp [cut_ending l ls hl, ih, lines]
    | true => rw [cut_doc l ls hl, flatMap_lines_addDoc, ih]

structure WellCut (b : Block) : Prop where
  docs : ∀ l ∈ b.docs, l.isDoc = true
  ending : ∀ s, b.ending = some s → s.isDoc = false

theorem wellCut_of_mem (ls : List SourceLine) (b : Block) (hb : b ∈ cut ls) : b.WellCut := by
  obtain ⟨bs, ds, hcut, hbs, hds⟩ := cut_shape ls
  rw [hcut, List.mem_append, List.mem_singleton] at hb
  rcases hb with hb | rfl
  · obtain ⟨hdocs, u, hu, hdoc⟩ := hbs b hb
    have hending : ∀ s, b.ending = some s → s.isDoc = false := by
      intro s hs
      rw [hu, Option.some.injEq] at hs
      exact hs ▸ hdoc
    exact ⟨hdocs, hending⟩
  · exact ⟨hds, by simp⟩

theorem cut_split (ls : List SourceLine) (good rest : List Block) (b : Block)
    (h : cut ls = good ++ b::rest) :
    (∀ g ∈ good, g.Ended) ∧ (b.ending = none → rest = []) := by
  obtain ⟨bs, ds, hcut, hbs, -⟩ := cut_shape ls
  rw [hcut] at h
  rcases List.eq_nil_or_concat rest with rfl | ⟨init, last, rfl⟩
  · obtain ⟨rfl, -⟩ := List.append_inj' h rfl
    exact ⟨hbs, fun _ => rfl⟩
  · rw [List.concat_eq_append, ← List.cons_append, ← List.append_assoc] at h
    obtain ⟨rfl, -⟩ := List.append_inj' h rfl
    constructor
    · intro g hg
      exact hbs g (by simp [hg])
    · intro hnone
      obtain ⟨s, hs, -⟩ := (hbs b (by simp)).2
      simp [hnone] at hs

theorem cut_docs_append (ds ls : List SourceLine) (h : ∀ l ∈ ds, l.isDoc = true) :
    cut (ds ++ ls) = ds.foldr addDoc (cut ls) := by
  induction ds with
  | nil => rfl
  | cons l ds ih =>
    rw [List.forall_mem_cons] at h
    rw [List.cons_append, cut_doc l _ h.1, ih h.2, List.foldr_cons]

theorem foldr_addDoc (ds : List SourceLine) (b : Block) (bs : List Block) :
    ds.foldr addDoc (b::bs) = ⟨ds ++ b.docs, b.ending⟩::bs := by
  induction ds with
  | nil => rfl
  | cons l ds ih => rw [List.foldr_cons, ih, addDoc, List.cons_append]

theorem cut_docs_first (ds ls : List SourceLine) (h : ∀ l ∈ ds, l.isDoc = true) :
    ∃ below e rest, cut (ds ++ ls) = ⟨ds ++ below, e⟩::rest := by
  obtain ⟨b, rest, hcut⟩ := List.exists_cons_of_ne_nil (cut_ne_nil ls)
  exact ⟨b.docs, b.ending, rest, by rw [cut_docs_append ds ls h, hcut, foldr_addDoc]⟩

theorem cut_ended_append (b : Block) (h : b.Ended) (ls : List SourceLine) :
    cut (b.lines ++ ls) = b :: cut ls := by
  obtain ⟨hdocs, s, hs, hdoc⟩ := h
  rw [lines, hs, List.append_assoc, cut_docs_append b.docs _ hdocs, Option.toList_some,
    List.singleton_append, cut_ending s ls hdoc, foldr_addDoc, List.append_nil, ← hs]

theorem cut_flatMap_append (bs : List Block) (h : ∀ b ∈ bs, b.Ended) (ls : List SourceLine) :
    cut (bs.flatMap lines ++ ls) = bs ++ cut ls := by
  induction bs with
  | nil => rfl
  | cons b bs ih =>
    rw [List.forall_mem_cons] at h
    rw [List.flatMap_cons, List.append_assoc, cut_ended_append b h.1, ih h.2, List.cons_append]

end AnnotatedZig.Block
