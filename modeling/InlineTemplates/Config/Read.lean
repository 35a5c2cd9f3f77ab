import InlineTemplates.Config.Basic
import InlineTemplates.Json.Value

/-! # Configurations as JSON texts

The text holds an object, or a list, with the modules: an object from names to exports, or `null`.
An export is a string, or an object with the string under `export`. Other keys do not matter. -/

namespace InlineTemplates.Config

open Json (Reader Value)
open Json.Reader

/-- How many brackets may be open at once. -/
def maxDepth : Nat := 128

/-- The export that a value gives: the value itself or what is under its only key `export`. -/
def exportOfValue? : Value → Option Text
  | .string t => some t
  | .object entries =>
    match entries.filter fun e => e.1 == text "export" with
    | [(_, .string t)] => some t
    | _ => none
  | _ => none

/-- The export of a module. -/
def exportValue (depth : Nat) : Reader Text := do
  match exportOfValue? (← value depth) with
  | some t => return t
  | none => failWhole (.noForm "ModuleConfigRepr")

/-- The modules and their exports. -/
def modulesValue (depth : Nat) : Reader (Option (List ModuleEntry)) := do
  match ← next? with
  | none => failAhead .endInValue
  | some 'n' =>
    skip
    word (text "ull")
    return none
  | some '\x7b' =>
    opened depth
    closed (do return some (← entries (exportValue (depth - 1)))) objectEnd
  | some c => otherForm c (text "a map")

/-- The modules in a list: its first element, if it has one. -/
def listContent (depth : Nat) : Reader (Option (List ModuleEntry)) := do
  if ← atElement true then modulesValue depth else return none

/-- The modules in an object: what is under `modules`, which may stand there once. -/
def objectContent (depth : Nat) : Reader (Option (List ModuleEntry)) := do
  let fields ← repeated fun (found : List (Option (Option (List ModuleEntry)))) => do
    if !(← atKey found.isEmpty) then return none
    if (← key) == text "modules" then
      if found.any Option.isSome then failWhole (.duplicateKey "modules")
      colon
      return some (some (← modulesValue depth) :: found)
    else
      colon
      skipAnyValue
      return some (none :: found)
  return (fields.findSome? id).getD none

/-- A configuration and nothing after it. -/
def whole : Reader Config := do
  let modules ← match ← next? with
    | none => failAhead .endInValue
    | some '[' =>
      opened maxDepth
      closed (listContent (maxDepth - 1)) listEnd
    | some '\x7b' =>
      opened maxDepth
      closed (objectContent (maxDepth - 1)) objectEnd
    | some c => otherForm c (text "struct InlinePrecompileConfig")
  textEnd
  return ⟨modules⟩

/-- The configuration that a text holds. -/
def ofJson? (source : Text) : Except ConfigError Config :=
  match (whole.run { rest := source }).1 with
  | .ok c => .ok c
  | .error f => .error (.invalid f.message)

end InlineTemplates.Config
