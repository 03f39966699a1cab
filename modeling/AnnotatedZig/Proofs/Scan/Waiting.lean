import AnnotatedZig.Proofs.Scan.Blame
import AnnotatedZig.Proofs.Scan.Concatenation

/-!
# A tag among the lines of its block

Below a waiting tag a scan does not look at where the tag stands, nor at the lines that are held, which
are given back only where no tag waits. So a tag may change places with the documentation lines around
it. Nothing comes out differently, but for the place that is blamed if the tag is left without a header.
-/

set_option autoImplicit false

namespace AnnotatedZig

namespace Context

def waiting (t : Tag) (k : Location) (hs : List SourceLine) (c : Context) : Context :=
  { c with pending := some ⟨t, k⟩, held := hs }

/-- What the line `l` comes to below the tag `t`, in the same words for every place of the tag and all
lines that are held with it. -/
inductive Below (t : Tag) (l : SourceLine) (c : Context) : Prop
  | remark (d : Context)
      (step_eq : ∀ k hs, (c.waiting t k hs).step l = { context := d.waiting t k (hs ++ [l]) }) :
      Below t l c
  | declare (p : Progress) (succeeds : p.failure = none) (clears : p.context = { file := c.file })
      (step_eq : ∀ k hs, (c.waiting t k hs).step l = p) : Below t l c
  | fail (d : Defect)
      (step_eq : ∀ k hs, ∃ e, (c.waiting t k hs).step l = .fail e (.defect d l.loc)) : Below t l c
  | lost
      (step_eq : ∀ k hs, ∃ e, (c.waiting t k hs).step l = .fail e (Pending.missingHeader ⟨t, k⟩)) :
      Below t l c

theorem below_doc (t : Tag) (l : SourceLine) (c : Context) (doc : l.isDoc = true) :
    Below t l c := by
  cases plain : l.isTag with
  | false =>
    refine .remark { c with doc := addDoc (Line.remark l.text) c.doc } fun k hs => ?_
    rw [step_plain _ l doc plain]
    rfl
  | true =>
    cases form : l.tag? with
    | none =>
      refine .fail (.malformedTag (Text.trim l.text)) fun k hs => ⟨c.waiting t k hs, ?_⟩
      rw [step_tag _ l plain, takeTag_malformed l _ form]
    | some u =>
      refine .lost fun k hs => ⟨c.waiting t k hs, ?_⟩
      rw [step_tag _ l plain, takeTag_second l _ u ⟨t, k⟩ form rfl]

theorem below_header (t : Tag) (l : SourceLine) (h : Line.Header) (c : Context)
    (code : l.isDoc = false) (form : l.header? = some h) : Below t l c := by
  have waits (k : Location) (hs : List SourceLine) :
      (c.waiting t k hs).pending = some ⟨t, k⟩ := rfl
  have step_eq (k : Location) (hs : List SourceLine) (q : Progress)
      (verdict : Verdict h l (c.waiting t k hs) q) : (c.waiting t k hs).step l = q := by
    rw [step_header _ l h code form, takeHeader_of_verdict h l _ q verdict]
  by_cases name_eq : h.name = t.name
  · rcases Block.types_known_or_not h.paramTypes with
      ⟨ts, known⟩ | ⟨before, u, after, ts, split, known, unknown⟩
    · cases ret_known : ZigType.read? h.retType with
      | none =>
        exact .fail (.unsupportedReturn t.name h.retType) fun k hs =>
          ⟨_, step_eq k hs _ (.ret (waits k hs) name_eq known ret_known)⟩
      | some ret =>
        obtain ⟨⟨env, ps⟩, split⟩ : ∃ s, ZigType.splitEnv (c.params ++ ts) = s := ⟨_, rfl⟩
        by_cases arity_eq : ps.length = t.arity
        · let d : Declaration :=
            { name := t.name, arity := t.arity, params := ps, ret := ret, doc := c.doc
              options := t.options, env := env, loc := some l.loc }
          let p : Progress :=
            { context := { file := c.file }, items := [.text l.text, .declaration d]
              events := [.declared d l.loc] }
          exact .declare p rfl rfl fun k hs =>
            step_eq k hs p (.declare (waits k hs) name_eq known ret_known split arity_eq rfl)
        · exact .fail (.arityMismatch t.arity ps.length) fun k hs =>
            ⟨_, step_eq k hs _ (.arity (waits k hs) name_eq known ret_known split arity_eq)⟩
    · exact .fail (.unsupportedParam t.name u) fun k hs =>
        ⟨_, step_eq k hs _ (.param (waits k hs) name_eq split known unknown)⟩
  · exact .fail (.strayHeader t.name h.name) fun k hs =>
      ⟨_, step_eq k hs _ (.stray (waits k hs) name_eq)⟩

theorem below_step (t : Tag) (l : SourceLine) (c : Context) : Below t l c := by
  cases doc : l.isDoc with
  | true => exact below_doc t l c doc
  | false =>
    cases form : l.header? with
    | some h => exact below_header t l h c doc form
    | none =>
      refine .lost fun k hs => ⟨c.waiting t k hs, ?_⟩
      rw [step_other _ l doc form]
      rfl

def rest (ls : List SourceLine) (c : Context) : Progress := (steps ls c).andThen finish

theorem rest_cons (l : SourceLine) (ls : List SourceLine) (c : Context) :
    rest (l::ls) c = (c.step l).andThen (rest ls) := by
  rw [rest, steps, Progress.andThen_assoc]
  rfl

theorem rest_append (ls ms : List SourceLine) (c : Context) :
    rest (ls ++ ms) c = (steps ls c).andThen (rest ms) := by
  rw [rest, steps_append, Progress.andThen_assoc]
  rfl

theorem located_rest (ls : List SourceLine) (c : Context) (hc : c.Rooted ls) :
    (rest ls c).Located ls := by
  have hsteps := located_steps ls ls c (List.Subset.refl ls) hc
  exact located_andThen ls _ _ hsteps (located_finish ls _ hsteps.rooted)

/-- What the lines below a waiting tag come to: the same for every place of the tag, with one of those
lines to blame if they fail; or the tag is left without a header. -/
inductive Ensues (t : Tag) (ls : List SourceLine) (c : Context) : Prop
  | same (items : List Item) (f : Option Failure) (blamed : ∀ g, f = some g → Blamed ls g)
      (rest_eq : ∀ k hs, (rest ls (c.waiting t k hs)).items = items ∧
        (rest ls (c.waiting t k hs)).failure = f) : Ensues t ls c
  | lost (rest_eq : ∀ k hs,
      (rest ls (c.waiting t k hs)).failure = some (Pending.missingHeader ⟨t, k⟩)) : Ensues t ls c

theorem ensues_rest (t : Tag) (ls : List SourceLine) (c : Context) : Ensues t ls c := by
  -- Only a remark leaves the tag waiting, and then one more line is held for every place of the tag.
  induction ls generalizing c with
  | nil => exact .lost fun k hs => rfl
  | cons l ls ih =>
    have htail : ls ⊆ l::ls := List.subset_cons_self l ls
    cases below_step t l c with
    | remark d step_eq =>
      have hrest (k : Location) (hs : List SourceLine) :
          rest (l::ls) (c.waiting t k hs) = rest ls (d.waiting t k (hs ++ [l])) := by
        rw [rest_cons, step_eq, Progress.andThen_of_none _ _ rfl]
        simp
      cases ih d with
      | same items f blamed rest_eq =>
        refine .same items f (fun g hg => blamed_mono _ _ g (blamed g hg) htail) fun k hs => ?_
        rw [hrest]
        exact rest_eq k _
      | lost rest_eq =>
        refine .lost fun k hs => ?_
        rw [hrest]
        exact rest_eq k _
    | declare p succeeds clears step_eq =>
      -- Both scans go on from the same fresh context.
      have hrooted : p.context.Rooted ls := rooted_free ls _ (by rw [clears])
      refine .same (p.andThen (rest ls)).items (p.andThen (rest ls)).failure (fun g hg => ?_)
        fun k hs => ?_
      · rw [Progress.andThen_failure, succeeds, Option.none_or] at hg
        exact blamed_mono _ _ g ((located_rest ls p.context hrooted).blamed g hg) htail
      · rw [rest_cons, step_eq]
        exact ⟨rfl, rfl⟩
    | fail d step_eq =>
      refine .same [] (some (.defect d l.loc)) (fun g hg => ?_) fun k hs => ?_
      · obtain rfl := Option.some.inj hg
        exact .defect d List.mem_cons_self
      · obtain ⟨e, he⟩ := step_eq k hs
        rw [rest_cons, he, Progress.andThen_of_failure _ _ _ rfl]
        exact ⟨rfl, rfl⟩
    | lost step_eq =>
      refine .lost fun k hs => ?_
      obtain ⟨e, he⟩ := step_eq k hs
      rw [rest_cons, he, Progress.andThen_of_failure _ _ _ rfl]
      rfl

end Context

end AnnotatedZig
