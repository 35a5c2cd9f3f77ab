import InlineTemplates.Script.Grammar.ModuleItem

/-! # The rules of the grammar, tied together -/

namespace InlineTemplates.Script.Grammar

open Parse

/-- Rules that fail: no construct is left to hold another one. -/
def none : Grammar where
  expr := failAtEnd
  assignment := failAtEnd
  unary := failAtEnd
  operators _ _ := failAtEnd
  leftHandSide := failAtEnd
  memberOrNew _ := failAtEnd
  statement := failAtEnd
  statementItem := failAtEnd
  moduleItem := failAtEnd
  pattern := failAtEnd
  element := failAtEnd
  type := failAtEnd
  nonConditionalType := failAtEnd
  unionOperand := failAtEnd
  typeElement := failAtEnd
  namespaceTail _ := failAtEnd

/-- Rules whose constructs hold constructs of the rules `g`. -/
def above (g : Grammar) : Grammar where
  expr := sequenceExpr g
  assignment := assignmentExpr g
  unary := unaryExpr g
  operators := operatorsRest g
  leftHandSide := leftHandSideExpr g
  memberOrNew := memberOrNewExpr g
  statement := innerStatement g false
  statementItem := innerStatement g true
  moduleItem := moduleItemOf g
  pattern := bindingPattern g false
  element := Parse.element g
  type := typeExpr g
  nonConditionalType := Parse.nonConditionalType g
  unionOperand := operatorType g
  typeElement := typeMember g
  namespaceTail := namespaceFrom g

/-- Rules for constructs that hold each other at most `n` deep. -/
def ofDepth : Nat → Grammar
  | 0 => none
  | n + 1 => above (ofDepth n)

/-- A depth that no text of this length reaches: each construct takes a token, or holds one that
does within a few steps. -/
def depthOf (source : Text) : Nat := 8 * source.length + 16

end InlineTemplates.Script.Grammar
