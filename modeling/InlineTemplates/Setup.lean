import InlineTemplates.Config.Basic
import InlineTemplates.Transform

/-! # Setting up a transform -/

namespace InlineTemplates

/-- The transform of a configuration. A missing precompiler is found before a fault of the
configuration. -/
def Transform.ofConfig? {σ : Type} (precompiler : Option (Precompiler σ)) (config : Config) :
    Except ConfigError (Transform σ) := do
  let some p := precompiler | throw .missingPrecompiler
  return ⟨p, ← config.targets⟩

end InlineTemplates
