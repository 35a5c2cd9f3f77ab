import InlineTemplates.Expansion
import InlineTemplates.Proofs.Printing.Edges
import InlineTemplates.Proofs.Printing.SameText

/-! # The call in print

What is printed for the call of a site is the template function and the expression in parentheses.
Only the call itself stands somewhere. -/

namespace InlineTemplates

open Script (Tree Doc Style Printed lit)

namespace Script

def argumentDoc (s : Style) (e : Tree) : Doc := lit "(" ++ (s.print e).code ++ lit ")"

/-- The print of the call without the comments before and behind it. -/
def Style.callDoc (s : Style) (e : Tree) : Doc :=
  (s.print templateFunction).whole ++ lit "(" ++
    ((s.print e).whole ++ Doc.behind (s.print e).span.hi) ++ lit ")"

theorem Style.list_commas_singleton (s : Style) (parent : Span) (entry : Entry) :
    s.list .commas parent [entry] = entry.code ++ Doc.behind entry.span.hi := by
  simp [Style.list, ListStyle.commas, Style.finalComma, Style.entry, List.intercalate]

end Script

variable {e : Tree} (s : Style)

theorem code_templateCall (e : Tree) (span : Span) :
    (s.print (templateCall e span)).code = Doc.before span.lo ++ s.callDoc e := by
  have hargs : s.arguments span [s.print e] =
      lit "(" ++ ((s.print e).whole ++ Doc.behind (s.print e).span.hi) ++ lit ")" := by
    rw [Style.arguments, List.map_singleton, Style.list_commas_singleton]
    rfl
  have hcode : (s.print (templateCall e span)).code =
      Doc.before span.lo ++ ((s.print templateFunction).whole ++ [] ++
        s.arguments span [s.print e]) := rfl
  rw [hcode, hargs, List.append_nil, Style.callDoc]
  simp only [List.append_assoc]

theorem nodes_templateFunction : ∀ u ∈ templateFunction.nodes, u.span = .nowhere := by decide

theorem only_callDoc (he : ∀ u ∈ e.nodes, u.span = .nowhere) :
    (s.callDoc e).Only fun place => place.2 = 0 := by
  have hfunction := s.fits_print_of_nowhere nodes_templateFunction
  have hanswer := s.fits_print_of_nowhere he
  have hend : (s.print e).span.hi = 0 := hanswer.span.after
  rw [Style.callDoc]
  simp [hfunction, hanswer, hend]

theorem sameText_callDoc (e : Tree) :
    Doc.SameText (s.callDoc e) (lit "Ember.HTMLBars.template" ++ Script.argumentDoc s e) := by
  have hfunction : Doc.SameText (s.print templateFunction).whole (lit "Ember.HTMLBars.template") :=
    Doc.sameText_merged _
  have hargument : Doc.SameText ((s.print e).whole ++ Doc.behind (s.print e).span.hi)
      (s.print e).code := .trans (.comments _ _ _ _) (.comments _ _ _ _)
  rw [Style.callDoc, Script.argumentDoc, List.append_assoc (lit "("),
    List.append_assoc _ _ (lit ")"), List.append_assoc _ (lit "(")]
  exact .append hfunction (.append (.refl _) (.append hargument (.refl _)))

end InlineTemplates
