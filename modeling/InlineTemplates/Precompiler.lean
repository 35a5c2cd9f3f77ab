import InlineTemplates.Script.Program
import InlineTemplates.TransformError

/-! # Precompilers

A precompiler is handed to the transform. It may keep a state from call to call. -/

namespace InlineTemplates

open Script (Tree fragment?)

/-- What a precompiler makes of a template. -/
inductive Answer where
  /-- Code of an expression. -/
  | code (c : Text)
  | expression (t : Tree)
  | failure (message : Text)
deriving DecidableEq, Repr

abbrev Precompiler (σ : Type) := Text → StateM σ Answer

/-- The expression that an answer gives. Errors are at the site's span. -/
def Answer.expression? (span : Span) : Answer → Except TransformError Tree
  | code c => match fragment? c with
    | .ok t => .ok t
    | .error e => .error ⟨span, .output c e.kind⟩
  | expression t => .ok t
  | failure message => .error ⟨span, .precompile message⟩

/-- Work that may fail and that keeps a precompiler's state even then. -/
abbrev Work (σ : Type) := ExceptT TransformError (StateM σ)

/-- The expression that a precompiler makes of a template. -/
def precompile {σ : Type} (p : Precompiler σ) (template : Text) (span : Span) : Work σ Tree := do
  let answer ← (p template : StateM σ Answer)
  answer.expression? span

end InlineTemplates
