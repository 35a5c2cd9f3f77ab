import InlineTemplates.Script.SyntaxError
import InlineTemplates.Target

/-! # Why a module cannot be transformed -/

namespace InlineTemplates

open Script (SyntaxErrorKind)

inductive TransformErrorKind where
  /-- A target is imported in a form other than the required one. -/
  | importForm (required used : Text)
  /-- A target is imported twice, or two targets under one name. -/
  | duplicateImport (source name : Text)
  /-- A tracked name is declared or assigned. -/
  | shadowed (source name : Text)
  /-- A tagged template has a placeholder. -/
  | placeholder
  /-- A call has not exactly one plain argument. -/
  | arity (callee : Text)
  /-- The argument of a call is no string literal. -/
  | argumentType (callee : Text)
  /-- The precompiler reported a failure. -/
  | precompile (message : Text)
  /-- The precompiler's code is not an expression. -/
  | output (code : Text) (error : SyntaxErrorKind)
deriving DecidableEq, Repr

structure TransformError where
  span : Span
  kind : TransformErrorKind
deriving DecidableEq, Repr

def TransformErrorKind.message : TransformErrorKind → Text
  | importForm required used =>
    text "Only `" ++ required ++ text "` is supported. You used: `" ++ used ++ text "`"
  | duplicateImport source name =>
    text "Only a single import from '" ++ source ++
      text "' is supported per file, found another one binding `" ++ name ++ text "`"
  | shadowed source name =>
    text "`" ++ name ++ text "` is imported from '" ++ source ++
      text "' and cannot be redeclared or reassigned"
  | placeholder => text "placeholders inside a tagged template string are not supported"
  | arity callee | argumentType callee =>
    callee ++ text " should be invoked with a single argument: the template string"
  | precompile message => text "Template precompilation failed: " ++ message
  | output code error =>
    text "Precompiled template is not a valid expression (" ++ text error.message ++ text "): " ++
      code

end InlineTemplates
