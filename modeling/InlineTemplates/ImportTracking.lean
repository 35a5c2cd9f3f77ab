import InlineTemplates.Script.Printer.Rules
import InlineTemplates.TransformError

/-! # Imports of template tags

The imports of target modules at the top level of a module are taken out, and each leaves a binding.
An import counts even if its name is never used. -/

namespace InlineTemplates

open Script (Tree Kind)

/-- The module that an item imports from. -/
def importSource? : Tree → Option Text
  | .node (.item (.import _ _)) _ [_, .node (.part (.string source _)) _ _, _] => some source
  | _ => none

/-- The target that an item imports from. -/
def importTarget? (targets : List Target) (item : Tree) : Option Target :=
  (importSource? item).bind (Target.find? targets)

/-- The name that a part of an import or export is written with. -/
def writtenName? : Tree → Option Text
  | .node (.part (.name n)) _ _ => some n
  | .node (.part (.string value _)) _ _ => some value
  | _ => none

/-- The local name of an import that has the form that its target accepts: an import of values with
exactly one specifier, which is the default one for a default export, and else a named one for
values. -/
def acceptedName? (target : Target) : Tree → Option Text
  | .node (.item (.import false _)) _ (.node _ _ [specifier] :: _) =>
    match specifier with
    | .node (.part .importDefault) _ [name] =>
      if target.isDefault then writtenName? name else none
    | .node (.part (.importNamed false)) _ [name, imported] =>
      let exported := if imported.isAbsent then writtenName? name else writtenName? imported
      if !target.isDefault && exported == some target.tag then writtenName? name else none
    | _ => none
  | _ => none

/-- An import as it is written, without blanks around it and semicolons after it. One that stands
nowhere is quoted as it is printed. -/
def usedSyntax (source : Text) (item : Tree) : Text :=
  let written := item.span.slice source
  let shown := if item.span.isNowhere || written.isEmpty then
      Tree.plain false [] (.node (.module none) .nowhere [item])
    else written
  Text.trimEnd (Text.dropTrailing ';' (Text.trim shown))

/-- The binding that an import of a target leaves, when others were found before it. -/
def bindingOf (source : Text) (found : List Binding) (target : Target) (item : Tree) :
    Except TransformError Binding :=
  match acceptedName? target item with
  | none => .error ⟨item.span, .importForm target.requiredSyntax (usedSyntax source item)⟩
  | some name =>
    if found.any fun b => b.source == target.source || b.name == name then
      .error ⟨item.span, .duplicateImport target.source name⟩
    else .ok ⟨target.source, name⟩

/-- The bindings of a list of items, after those that were found before. -/
def bindingsAfter (targets : List Target) (source : Text) (found : List Binding) :
    List Tree → Except TransformError (List Binding)
  | [] => .ok found
  | item :: rest =>
    match importTarget? targets item with
    | none => bindingsAfter targets source found rest
    | some target =>
      match bindingOf source found target item with
      | .error e => .error e
      | .ok b => bindingsAfter targets source (found ++ [b]) rest

/-- The items that import from no target. -/
def otherItems (targets : List Target) (items : List Tree) : List Tree :=
  items.filter fun item => (importTarget? targets item).isNone

/-- The bindings of a module in the order of their imports, and the module without these imports. -/
def trackImports (targets : List Target) (source : Text) (module : Tree) :
    Except TransformError (List Binding × Tree) :=
  match bindingsAfter targets source [] module.parts with
  | .error e => .error e
  | .ok bindings =>
    .ok (bindings, .node module.kind module.span (otherItems targets module.parts))

end InlineTemplates
