import AnnotatedZig.Location
import AnnotatedZig.Text.Quoted
import AnnotatedZig.ZigType

/-!
# Declarations of native functions

A declaration is what a tag, its documentation and the header below them say together. The
environment handle is kept apart: the runtime supplies it, so it is neither among the parameters
nor counted in the arity, and only the signature shows it, in first place.

Unlike types in source, the parts of a declaration that is written out must be spelled canonically.
They are read in the order parameters, return type, options, environment handle, and the first
that is no word of its vocabulary is the error.
-/

set_option autoImplicit false

namespace AnnotatedZig

inductive ExecOption where
  | long | dirty | threaded
  deriving DecidableEq

namespace ExecOption

def spelling : ExecOption → Text
  | long => "long".toList
  | dirty => "dirty".toList
  | threaded => "threaded".toList

def all : List ExecOption := [long, dirty, threaded]

def ofSpelling? (text : Text) : Option ExecOption := all.find? (fun o => o.spelling = text)

end ExecOption

structure Declaration where
  name : Text
  arity : Nat
  params : List ZigType
  ret : ZigType
  doc : Option Text
  options : List ExecOption
  env : Option ZigType
  loc : Option Location
  deriving DecidableEq

namespace Declaration

/-- Two declarations agree when they differ at most in their place. -/
def agrees (a b : Declaration) : Bool := { a with loc := none } = { b with loc := none }

def signature (d : Declaration) : Text :=
  d.name ++ '(' :: Text.joinWith ", ".toList ((d.env.toList ++ d.params).map ZigType.spelling) ++
    ") ".toList ++ d.ret.spelling

def arityText (d : Declaration) : Text := (toString d.arity).toList

def optionsText (d : Declaration) : Text :=
  Text.joinWith [' '] (d.options.map ExecOption.spelling)

def tableLine (d : Declaration) : Text :=
  d.name ++ '/' :: d.arityText ++ ": ".toList ++ d.signature ++
    (if d.options = [] then [] else " [".toList ++ d.optionsText ++ [']']) ++ ['\n']

def table (ds : List Declaration) : Text := ds.flatMap tableLine

end Declaration

inductive Vocabulary where
  | type | option
  deriving DecidableEq

def Vocabulary.label : Vocabulary → String
  | type => "TypeSpelling"
  | option => "NifOption"

structure UnknownSpelling where
  vocabulary : Vocabulary
  text : Text
  deriving DecidableEq

def UnknownSpelling.message (e : UnknownSpelling) : String :=
  Text.quoted (String.ofList e.text) ++ " is not a valid " ++ e.vocabulary.label

def ZigType.ofSpelling (text : Text) : Except UnknownSpelling ZigType :=
  match ofSpelling? text with
  | some t => .ok t
  | none => .error ⟨.type, text⟩

def ExecOption.ofSpelling (text : Text) : Except UnknownSpelling ExecOption :=
  match ofSpelling? text with
  | some o => .ok o
  | none => .error ⟨.option, text⟩

structure SpelledDeclaration where
  name : Text
  arity : Nat
  params : List Text
  ret : Text
  doc : Option Text
  options : List Text
  env : Option Text
  loc : Option Location
  deriving DecidableEq

namespace SpelledDeclaration

def read (d : SpelledDeclaration) : Except UnknownSpelling Declaration := do
  let params ← d.params.mapM ZigType.ofSpelling
  let ret ← ZigType.ofSpelling d.ret
  let options ← d.options.mapM ExecOption.ofSpelling
  let env ← d.env.mapM ZigType.ofSpelling
  return { name := d.name, arity := d.arity, params := params, ret := ret, doc := d.doc,
           options := options, env := env, loc := d.loc }

end SpelledDeclaration

end AnnotatedZig
