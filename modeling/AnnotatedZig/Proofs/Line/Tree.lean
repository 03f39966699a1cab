import AnnotatedZig.Line.Tree

/-!
# Line trees, read back

The tree of a line holds every terminal that is asked for when it is read, and its options are words
of the vocabulary. A header therefore reads back as it was, and a tag too, unless its arity has too
many digits.
-/

set_option autoImplicit false

namespace AnnotatedZig.Line

theorem ofSpelling_spelling (o : ExecOption) : ExecOption.ofSpelling o.spelling = .ok o := by
  cases o <;> rfl

theorem mapM_read {α β : Type} (tree : α → Tree) (read : Tree → Except Tree.ReadError β) (f : α → β)
    (h : ∀ a, read (tree a) = .ok (f a)) (as : List α) : (as.map tree).mapM read = .ok (as.map f) := by
  induction as with
  | nil => rfl
  | cons a as ih =>
    rw [List.map_cons, List.mapM_cons, h, ih]
    rfl

theorem readOption_tree (o : ExecOption) : (optionTree o).readOption = .ok o := by
  have htext : (optionTree o).demand .option = .ok o.spelling := rfl
  rw [Tree.readOption, htext]
  show (ExecOption.ofSpelling o.spelling).mapError _ = .ok o
  rw [ofSpelling_spelling]
  rfl

theorem options_tree (t : Tag) :
    (t.tree.children.filter (Tree.isNode .option)).mapM Tree.readOption = .ok t.options := by
  have hnodes : t.tree.children.filter (Tree.isNode .option) = t.options.map optionTree := by
    show (t.options.map optionTree).filter (Tree.isNode .option) = t.options.map optionTree
    rw [List.filter_eq_self]
    intro u hu
    obtain ⟨o, -, rfl⟩ := List.mem_map.mp hu
    rfl
  rw [hnodes, mapM_read optionTree Tree.readOption id readOption_tree, List.map_id]

theorem readTag_tree (t : Tag) :
    t.tree.readTag = (AnnotatedZig.Tag.ofLine t).mapError .numeralTooLong := by
  have hname : t.tree.demand .name = .ok t.name := rfl
  have hdigits : t.tree.demand .arity = .ok t.digits := rfl
  simp only [Tree.readTag, hname, hdigits, options_tree, bind, Except.bind]

theorem params_tree (h : Header) : h.tree.params = h.params.map Param.tree := by
  have hlist : (h.tree.children.findSome? (Tree.childrenOf? .paramList)).getD [] =
      h.params.map Param.tree := by
    obtain ⟨name, params, ret, body⟩ := h
    cases params with
    | nil => cases body <;> rfl
    | cons p ps => rfl
  rw [Tree.params, hlist, List.filter_eq_self]
  intro u hu
  obtain ⟨p, -, rfl⟩ := List.mem_map.mp hu
  rfl

theorem readSignature_tree (h : Header) :
    h.tree.readSignature = .ok ⟨h.name, h.paramTypes, h.retType⟩ := by
  have hname : h.tree.demand .name = .ok h.name := rfl
  have hret : h.tree.demand .retType = .ok h.ret := by
    obtain ⟨name, params, ret, body⟩ := h
    cases params <;> rfl
  have htypes : h.tree.params.mapM Tree.readParam = .ok h.paramTypes := by
    rw [params_tree]
    exact mapM_read Param.tree Tree.readParam (fun p => Text.trim p.type) (fun _ => rfl) h.params
  rw [Tree.readSignature, hname, hret, htypes]
  rfl

end AnnotatedZig.Line
