import AnnotatedZig.Line.Basic

/-!
# Line trees

The tree of a line shows which rule matched and which terminals it holds, in order. Punctuation and
the line feed are left out. Reading a tag or a header back needs some terminals among the direct
children of the tree; a tree of another form lacks one of them, and the first it lacks is named.
-/

set_option autoImplicit false

namespace AnnotatedZig.Line

inductive Form where
  | tag | doc | header
  deriving DecidableEq

inductive Rule where
  | line (form : Form)
  | option | paramList | param
  deriving DecidableEq

def Rule.label : Rule → String
  | line .tag => "annotation_line"
  | line .doc => "doc_line"
  | line .header => "fn_header"
  | option => "nif_option"
  | paramList => "param_list"
  | param => "param"

inductive Terminal where
  | docMark | nifMark | name | arity | option | docText | fn | paramType | retType | body
  deriving DecidableEq

def Terminal.label : Terminal → String
  | docMark => "DOC_MARK"
  | nifMark => "NIF_MARK"
  | name => "NAME"
  | arity => "ARITY"
  | option => "OPTION"
  | docText => "DOC_TEXT"
  | fn => "FN"
  | paramType => "PARAM_TYPE"
  | retType => "RET_TYPE"
  | body => "BODY"

inductive Tree where
  | leaf (terminal : Terminal) (text : Text)
  | node (rule : Rule) (children : List Tree)

def optionalLeaf (terminal : Terminal) (text : Text) : List Tree :=
  if text = [] then [] else [.leaf terminal text]

def docTree (text : Text) : Tree :=
  .node (.line .doc) (.leaf .docMark "///".toList :: optionalLeaf .docText text)

def optionTree (o : ExecOption) : Tree := .node .option [.leaf .option o.spelling]

def Tag.tree (t : Tag) : Tree :=
  .node (.line .tag) ([.leaf .docMark "///".toList, .leaf .nifMark "nif:".toList,
    .leaf .name t.name, .leaf .arity t.digits] ++ t.options.map optionTree)

def Param.tree (p : Param) : Tree := .node .param [.leaf .name p.name, .leaf .paramType p.type]

def paramListTree (ps : List Param) : List Tree :=
  if ps = [] then [] else [.node .paramList (ps.map Param.tree)]

def Header.tree (h : Header) : Tree :=
  .node (.line .header) ([.leaf .fn "fn".toList, .leaf .name h.name] ++ paramListTree h.params ++
    .leaf .retType h.ret :: optionalLeaf .body h.body)

def tree? (text : Text) : Form → Option Tree
  | .tag => (tag? text).map Tag.tree
  | .doc => (doc? text).map docTree
  | .header => (header? text).map Header.tree

namespace Tree

def children : Tree → List Tree
  | leaf _ _ => []
  | node _ ts => ts

def label : Tree → String
  | leaf t _ => t.label
  | node r _ => r.label

def textOf? (terminal : Terminal) : Tree → Option Text
  | leaf t text => if t = terminal then some text else none
  | node _ _ => none

def childrenOf? (rule : Rule) : Tree → Option (List Tree)
  | leaf _ _ => none
  | node r ts => if r = rule then some ts else none

/-- The first direct child that is the given terminal. -/
def find? (terminal : Terminal) (t : Tree) : Option Text :=
  t.children.findSome? (textOf? terminal)

/-- Why a tree is not read: it lacks a terminal, an option of it is none, or its digits are too many. -/
inductive ReadError where
  | missing (tree : String) (terminal : Terminal)
  | unknownSpelling (e : UnknownSpelling)
  | numeralTooLong (digits : Nat)
  deriving DecidableEq

def ReadError.message : ReadError → String
  | missing tree terminal => tree ++ " node missing " ++ terminal.label ++ " token"
  | unknownSpelling e => e.message
  | numeralTooLong n => Text.longNumeralMessage n

def demand (terminal : Terminal) (t : Tree) : Except ReadError Text :=
  match t.find? terminal with
  | some text => .ok text
  | none => .error (.missing t.label terminal)

def isNode (rule : Rule) (t : Tree) : Bool := (childrenOf? rule t).isSome

def readOption (t : Tree) : Except ReadError ExecOption := do
  let text ← t.demand .option
  (ExecOption.ofSpelling text).mapError .unknownSpelling

def readTag (t : Tree) : Except ReadError AnnotatedZig.Tag := do
  let name ← t.demand .name
  let digits ← t.demand .arity
  let options ← (t.children.filter (isNode .option)).mapM readOption
  (Tag.ofLine ⟨name, digits, options⟩).mapError .numeralTooLong

structure Signature where
  name : Text
  params : List Text
  ret : Text
  deriving DecidableEq

def params (t : Tree) : List Tree :=
  ((t.children.findSome? (childrenOf? .paramList)).getD []).filter (isNode .param)

def readParam (t : Tree) : Except ReadError Text := (t.demand .paramType).map Text.trim

def readSignature (t : Tree) : Except ReadError Signature := do
  let name ← t.demand .name
  let params ← t.params.mapM readParam
  let ret ← t.demand .retType
  return ⟨name, params, Text.trim ret⟩

end Tree

end AnnotatedZig.Line
