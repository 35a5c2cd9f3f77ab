import InlineTemplates.Script.Tree
import InlineTemplates.TransformError

/-! # Uses of template tags

A site is a tagged template or a call whose tag or callee is exactly a tracked name. -/

namespace InlineTemplates

open Script (Tree Kind)

/-- How a template is handed over. -/
inductive SiteForm where
  /-- The strings of a tagged template, and its placeholders. -/
  | tagged (placeholders strings : List Tree)
  | call (arguments : List Tree)
deriving Repr

structure Site where
  binding : Binding
  span : Span
  form : SiteForm
deriving Repr

/-- The name that an expression is. -/
def plainName? : Tree → Option Text
  | .node (.expr (.name n)) _ _ => some n
  | _ => none

/-- The site that an expression is. -/
def siteOf? (bindings : List Binding) : Tree → Option Site
  | .node (.expr .tagged) span [tag, _, template] => do
    let b ← Binding.find? bindings (← plainName? tag)
    return ⟨b, span, .tagged (template.items 0) (template.items 1)⟩
  | .node (.expr .call) span (callee :: arguments :: _) => do
    let b ← Binding.find? bindings (← plainName? callee)
    return ⟨b, span, .call arguments.parts⟩
  | _ => none

/-- The text of a string of a template: a string with an invalid escape counts as it is written. -/
def stringOf : Tree → Text
  | .node (.part (.quasi _ cooked raw)) _ _ => cooked.getD raw
  | _ => []

/-- The template of a site. -/
def Site.template? (s : Site) : Except TransformError Text :=
  match s.form with
  | .tagged (placeholder :: _) _ => .error ⟨placeholder.span, .placeholder⟩
  | .tagged [] strings => .ok (strings.flatMap stringOf)
  | .call [.node (.part .spread) _ _] => .error ⟨s.span, .arity s.binding.name⟩
  | .call [.node (.expr (.string value _)) _ _] => .ok value
  | .call [argument] => .error ⟨argument.span, .argumentType s.binding.name⟩
  | .call _ => .error ⟨s.span, .arity s.binding.name⟩

/-- All sites of a tree, each before those inside it. -/
def sites (bindings : List Binding) (t : Tree) : List Site := t.nodes.filterMap (siteOf? bindings)

end InlineTemplates
