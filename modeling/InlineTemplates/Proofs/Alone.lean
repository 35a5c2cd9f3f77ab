import InlineTemplates.Proofs.Erasure
import InlineTemplates.Proofs.Reading
import InlineTemplates.Proofs.SourceEnd

/-! # An expression by itself

What a text is read as that is one expression, with nothing but blanks and comments around it. -/

namespace InlineTemplates.Script

open Parse (onSource runOn startOf AtSourceEnd)

def Parse.wholeExpression : Parse Tree := do
  let e ← Parse.expression
  if !(← Parse.atEnd) then Parse.fail .singleExpression
  return e

/-- The context of an expression by itself. -/
def Parse.aloneContext : Context := { dialect := .plain, allowIn := true }

/-- Whether a text is one expression, in which `in` is an operator, with nothing but blanks and
comments around it. -/
def isExpression (source : Text) : Bool :=
  match onSource Parse.wholeExpression { dialect := .plain, allowIn := true } source with
  | .ok (_, after) => after.lexer.rest.isEmpty
  | .error _ => false

/-- What a text is read as that is one expression, without its spans. -/
def readAlone? (source : Text) : Option Tree :=
  match onSource Parse.wholeExpression Parse.aloneContext source with
  | .ok (e, after) => if after.lexer.rest.isEmpty then some e.eraseSpans else none
  | .error _ => none

variable {source : Text} {e : Tree} {c : Context} {s s₁ : ParseState} {last : Span}
  {errors : List SyntaxError}

theorem isExpression_eq_isSome (source : Text) :
    isExpression source = (readAlone? source).isSome := by
  unfold isExpression readAlone? Parse.aloneContext
  cases onSource Parse.wholeExpression { dialect := .plain, allowIn := true } source with
  | error _ => rfl
  | ok read =>
    dsimp only
    split <;> simp_all

theorem readAlone?_of_runOn
    (h : runOn Parse.wholeExpression Parse.aloneContext (startOf source) = (.ok e, s))
    (hrest : s.lexer.rest = []) (herrors : s.lexer.record.errors = []) :
    readAlone? source = some e.eraseSpans := by
  rw [readAlone?, Parse.onSource_of_runOn h herrors]
  dsimp only
  rw [hrest]
  rfl

namespace Parse

theorem of_runOn_wholeExpression (h : runOn wholeExpression c s = (.ok e, s₁)) :
    ∃ s₂, runOn expression c s = (.ok e, s₂) := by
  unfold wholeExpression at h
  obtain ⟨first, s₂, hfirst, hrest⟩ := of_runOn_bind_ok h
  have hsame : Gives (· = first) (do
      if !(← atEnd) then fail .singleExpression
      return first : Parse Tree) := .bind fun ended => .perhaps (.pure rfl)
  exact ⟨s₂, gives_iff.mp hsame _ _ _ _ hrest ▸ hfirst⟩

theorem runOn_wholeExpression (h : runOn expression c s = (.ok e, s₁))
    (hend : AtSourceEnd last errors s₁) :
    ∃ s', runOn wholeExpression c s = (.ok e, s') ∧ AtSourceEnd last errors s' := by
  have hends : Ends c last (do
      if !(← atEnd) then fail .singleExpression
      return e : Parse Tree) e :=
    (Ends.bind ends_token? (.pure true)).bind (.pure e)
  obtain ⟨s', hrest, hend'⟩ := hends _ _ hend
  exact ⟨s', runOn_then h hrest, hend'⟩

end Parse
end InlineTemplates.Script
