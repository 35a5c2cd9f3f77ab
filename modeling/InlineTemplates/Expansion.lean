import InlineTemplates.Precompiler
import InlineTemplates.Site

/-! # Sites become calls

Each outermost site gives way to a call of `Ember.HTMLBars.template`. The first failure ends the
expansion, and the precompiler is not called again. -/

namespace InlineTemplates

open Script (Tree Kind)

/-- A property of an expression. -/
def propertyOf (object : Tree) (name : Text) : Tree :=
  .expr .member .nowhere [object, .ofPart (.name name) .nowhere []]

/-- `Ember.HTMLBars.template` -/
def templateFunction : Tree :=
  propertyOf (propertyOf (.expr (.name (text "Ember")) .nowhere []) (text "HTMLBars"))
    (text "template")

/-- The call that stands for a site. It takes the site's span and has no other. -/
def templateCall (expression : Tree) (span : Span) : Tree :=
  .expr .call span [templateFunction, .list [expression], .absent]

/-- A tree after expansion, and how many sites were expanded in it. -/
structure Expanded (α : Type) where
  result : α
  count : Nat
deriving Repr

/-- The call that a site becomes. -/
def Site.expand {σ : Type} (p : Precompiler σ) (s : Site) : Work σ Tree := do
  let template ← s.template?
  return templateCall (← precompile p template s.span) s.span

mutual
/-- The tree with its outermost sites expanded, in the order of a traversal. -/
def expand {σ : Type} (bindings : List Binding) (p : Precompiler σ) :
    Tree → Work σ (Expanded Tree)
  | .node kind span parts =>
    match siteOf? bindings (.node kind span parts) with
    | some s => do return ⟨← s.expand p, 1⟩
    | none => do
      let inner ← expandAll bindings p parts
      return ⟨.node kind span inner.result, inner.count⟩

def expandAll {σ : Type} (bindings : List Binding) (p : Precompiler σ) :
    List Tree → Work σ (Expanded (List Tree))
  | [] => return ⟨[], 0⟩
  | t :: ts => do
    let first ← expand bindings p t
    let others ← expandAll bindings p ts
    return ⟨first.result :: others.result, first.count + others.count⟩
end

end InlineTemplates
