import InlineTemplates.Text.Span

/-! # Template tags: what a module may import, and what it did import -/

namespace InlineTemplates

/-- An export that is a template tag, and the module that has it. -/
structure Target where
  source : Text
  tag : Text
deriving DecidableEq, Repr

namespace Target

/-- The export that an import without braces imports. -/
def defaultExport : Text := text "default"

/-- The target that counts when no modules are configured. -/
def standard : Target := ⟨text "htmlbars-inline-precompile", defaultExport⟩

def isDefault (t : Target) : Bool := t.tag == defaultExport

/-- The import that a target accepts, as messages show it. -/
def requiredSyntax (t : Target) : Text :=
  (if t.isDefault then text "import hbs from '"
    else text "import \x7b " ++ t.tag ++ text " \x7d from '") ++ t.source ++ text "'"

/-- The target of a module: the first one counts. -/
def find? (targets : List Target) (source : Text) : Option Target :=
  targets.find? (·.source == source)

theorem source_of_find? {targets : List Target} {source : Text} {t : Target}
    (h : find? targets source = some t) : t.source = source := by
  simpa using List.find?_some h

theorem find?_eq_none_iff {targets : List Target} {source : Text} :
    find? targets source = none ↔ ∀ t ∈ targets, t.source ≠ source := by
  simp [find?]

end Target

/-- A name that stands for a template tag in one module. -/
structure Binding where
  source : Text
  name : Text
deriving DecidableEq, Repr

/-- The binding of a name: the first one counts. -/
def Binding.find? (bindings : List Binding) (name : Text) : Option Binding :=
  bindings.find? (·.name == name)

end InlineTemplates
