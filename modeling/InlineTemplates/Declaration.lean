import InlineTemplates.Script.Tree
import InlineTemplates.TransformError

/-! # Declared and assigned names

A tracked name may not be declared or assigned anywhere in its module, in whatever scope. -/

namespace InlineTemplates

open Script (Tree Kind)

/-- An occurrence of a name. -/
structure Occurrence where
  name : Text
  span : Span
deriving DecidableEq, Repr

/-- The occurrence that a node is: the name of a declaration, of an expression or of a pattern. -/
def occurrence? : Tree → Option Occurrence
  | .node (.part (.name n)) span _ | .node (.expr (.name n)) span _
  | .node (.pat (.name n _)) span _ => some ⟨n, span⟩
  | _ => none

/-- The name that a node itself declares or assigns, as opposed to its parts. -/
def ownDeclaration? : Tree → Option Occurrence
  | t@(.node (.pat (.name _ _)) _ _) => occurrence? t
  | .node (.expr (.update _ _)) _ [target] => match target.kind with
    | .expr _ => occurrence? target
    | _ => none
  | .node (.expr .function) _ (name :: _) | .node (.expr .classExpr) _ (name :: _)
  | .node (.stmt (.function _)) _ (name :: _) | .node (.stmt (.classDecl _)) _ (name :: _)
  | .node (.part (.importNamed _)) _ (name :: _) | .node (.part .importDefault) _ (name :: _)
  | .node (.part .importNamespace) _ (name :: _) => occurrence? name
  | _ => none

/-- Whether a kind belongs to types alone. Names in types declare no values. -/
def isTypeOnly : Kind → Bool
  | .type _ | .typeElement _ => true
  | _ => false

mutual
/-- The names that a tree declares or assigns, each before what stands inside its construct. -/
def declarations : Tree → List Occurrence
  | .node kind span parts =>
    if isTypeOnly kind then []
    else (ownDeclaration? (.node kind span parts)).toList ++ declarationsOfAll parts

def declarationsOfAll : List Tree → List Occurrence
  | [] => []
  | t :: ts => declarations t ++ declarationsOfAll ts
end

theorem declarationsOfAll_eq_flatMap (ts : List Tree) :
    declarationsOfAll ts = ts.flatMap declarations := by
  induction ts with
  | nil => rfl
  | cons t ts ih => simp [declarationsOfAll, ih]

/-- The error for an occurrence of a tracked name. -/
def shadowing? (bindings : List Binding) (o : Occurrence) : Option TransformError :=
  (Binding.find? bindings o.name).map fun b => ⟨o.span, .shadowed b.source o.name⟩

/-- Refuses a module that declares or assigns a tracked name: the first such place counts. -/
def checkShadowing (bindings : List Binding) (module : Tree) : Except TransformError Unit :=
  match (declarations module).findSome? (shadowing? bindings) with
  | some e => .error e
  | none => .ok ()

end InlineTemplates
