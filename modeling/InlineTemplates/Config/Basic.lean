import InlineTemplates.Config.TableOrder
import InlineTemplates.Target

/-! # Configurations

A configuration may name modules and the export of each that is a template tag. It takes the place
of the standard target then, even if it names none. -/

namespace InlineTemplates

/-- A module and its export that is a template tag. -/
abbrev ModuleEntry := Text × Text

/-- The entries are in the order of their text. The last one of a module counts. -/
structure Config where
  modules : Option (List ModuleEntry) := none
deriving DecidableEq, Repr

inductive ConfigError where
  | missingPrecompiler
  | emptyExport (module : Text)
  | invalid (message : Text)
deriving DecidableEq, Repr

def ConfigError.message : ConfigError → Text
  | missingPrecompiler => text "htmlbars-inline-precompile requires a `precompile` function"
  | emptyExport module =>
    text "Module '" ++ module ++ text "' is configured with an empty `export`"
  | invalid message => text "Invalid configuration: " ++ message

namespace Config

/-- The export of a module: its last entry counts. -/
def exportOf? (entries : List ModuleEntry) (module : Text) : Option Text :=
  (entries.reverse.find? (·.1 == module)).map (·.2)

/-- The order of texts by code points. -/
def textLe : Text → Text → Bool
  | [], _ => true
  | _ :: _, [] => false
  | a :: s, b :: t => if a == b then textLe s t else a < b

/-- The modules without repetition, in the order of their names. -/
def sortedModules (entries : List ModuleEntry) : List Text :=
  (entries.map (·.1)).eraseDups.mergeSort textLe

/-- The modules with their exports, in the order of the modules' names. -/
def sortedEntries (entries : List ModuleEntry) : List ModuleEntry :=
  (sortedModules entries).map fun m => (m, (exportOf? entries m).getD [])

/-- The first module with an empty export, in the order of a table of all modules. -/
def emptyModule? (entries : List ModuleEntry) : Option Text :=
  (tableOrder (entries.map (·.1))).find? fun m => exportOf? entries m == some []

/-- The targets in the order of their modules' names. -/
def targets (c : Config) : Except ConfigError (List Target) :=
  match c.modules with
  | none => .ok [.standard]
  | some entries =>
    match emptyModule? entries with
    | some m => .error (.emptyExport m)
    | none => .ok ((sortedEntries entries).map fun e => ⟨e.1, e.2⟩)

end Config
end InlineTemplates
