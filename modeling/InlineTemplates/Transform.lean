import InlineTemplates.Declaration
import InlineTemplates.ImportTracking
import InlineTemplates.Expansion

/-! # The transform of a module -/

namespace InlineTemplates

open Script (Tree)

/-- A transform is set up once and applied to any number of modules. -/
structure Transform (σ : Type) where
  precompiler : Precompiler σ
  targets : List Target

/-- What was done to a module. -/
structure Summary where
  removed : Nat
  expanded : Nat
deriving DecidableEq, Repr

/-- Whether the module imported no target and stayed as it was. -/
def Summary.isNoop (s : Summary) : Bool := s.removed == 0

/-- The module without the imports of targets and with its sites expanded. The text that its spans
refer to serves to quote imports in errors. -/
def Transform.module {σ : Type} (f : Transform σ) (source : Text) (module : Tree) :
    Work σ (Tree × Summary) := do
  let (bindings, rest) ← trackImports f.targets source module
  if bindings.isEmpty then return (rest, ⟨0, 0⟩)
  checkShadowing bindings rest
  let done ← expand bindings f.precompiler rest
  return (done.result, ⟨bindings.length, done.count⟩)

end InlineTemplates
