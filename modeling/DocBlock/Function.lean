import DocBlock.Body
import DocBlock.Declaration
import DocBlock.Log.Event
import DocBlock.Parameter

/-! Functions of a source text with their doc comments, and whether the comment still fits. -/

namespace DocBlock

structure Function where
  name : String
  /-- The doc comment directly above the declaration, its marks included. -/
  docComment : Option String
  /-- The declaration and, on the next line, the body from brace to brace. -/
  body : String
  bodyState : BodyState
  returnType : Option String
  /-- The byte offset of the declaration. -/
  offset : Nat
  line : Nat
  declared : List Parameter
  documented : List Parameter
  deriving DecidableEq, Repr

inductive Status
  | documented
  | missing
  /-- The doc comment names other parameters than the declaration. -/
  | stale
  deriving DecidableEq, Repr

def Status.word : Status → String
  | .documented => "documented"
  | .missing => "missing"
  | .stale => "stale"

namespace Function

def hasDocComment (function : Function) : Bool := function.docComment.isSome

def parametersMatch (function : Function) : Bool :=
  Parameter.sameNames function.declared function.documented

def isStale (function : Function) : Bool :=
  function.hasDocComment && !function.parametersMatch

def status (function : Function) : Status :=
  if !function.hasDocComment then .missing
  else if function.parametersMatch then .documented
  else .stale

def ofDeclaration (code : String) (declaration : Declaration) : Function :=
  let found := Body.extract code declaration.start
  { name := declaration.name
    docComment := declaration.docComment
    body := if found.span.isEmpty then declaration.text else declaration.text ++ "\n" ++ found.text
    bodyState := found.state
    returnType := declaration.returnType
    offset := declaration.start
    line := Text.lineOf code declaration.start
    declared := Parameter.declared declaration.parameterList
    documented := declaration.docComment.elim [] Parameter.documented }

/-- All functions of a source text, in order. -/
def ofSource (code : String) : List Function :=
  (Declaration.scan code).map (ofDeclaration code)

def unclosedWarning? (function : Function) : Option Log.Event :=
  if function.bodyState = .unterminated then
    some ⟨.warn, "phpdocgen::parser", "function body never closes; keeping partial body",
      [("function", Log.quotedWord function.name), ("offset", toString function.offset)]⟩
  else none

end Function

end DocBlock
