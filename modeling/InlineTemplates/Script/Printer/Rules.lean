import InlineTemplates.Script.Printer.Class
import InlineTemplates.Script.Printer.Item
import InlineTemplates.Script.Printer.TypeExpr
import InlineTemplates.Script.Program

/-! # The code of any tree -/

namespace InlineTemplates.Script

namespace Style

def words (marks : List (Bool × String)) : Doc :=
  marks.flatMap fun (present, w) => if present then lit (w ++ " ") else []

/-- The code of a part without the comments before it. -/
def partCode (s : Style) (span : Span) : PartKind → List Printed → Doc
  | .name n, _ => [.text n]
  | .privateName n, _ => [.text ('#' :: n)]
  | .string v raw, _ => [.text (Spelling.string s.dense v raw)]
  | .number v raw, _ => [.text (Spelling.number s.dense v raw)]
  | .bigInt v raw, _ => [.text (Spelling.bigInt s.dense v raw)]
  | .computed, [e] => lit "[" ++ e.whole ++ lit "]"
  | .spread, [e] => lit "..." ++ e.whole
  | .super, _ => lit "super"
  | .importCallee phase, _ => match phase with
    | .evaluation => lit "import"
    | .source => lit "import.source"
    | .defer => lit "import.defer"
  | .param, [pat] => pat.whole
  | .declarator _, [pat, init] => pat.whole ++ init.led (s.gap ++ lit "=" ++ s.gap) Printed.whole
  | .case, [test, body] =>
    (if test.isAbsent then lit "default"
      else lit "case" ++ s.gapIf test.tree.startsWord ++ test.whole) ++ lit ":" ++
      s.list .caseBody span (body.parts.map (·.entry s.statement))
  | .catchClause, [param, body] =>
    lit "catch" ++ s.gap ++ param.led (lit "(") (fun p => p.whole ++ lit ")") ++ s.gap ++ body.code
  | .importNamed typeOnly, [name, imported] =>
    (if typeOnly then lit "type " else []) ++
      if imported.isAbsent then name.code else renamed imported name
  | .importDefault, [name] => name.code
  | .importNamespace, [name] => lit "*" ++ s.gap ++ lit "as " ++ name.code
  | .exportName typeOnly, [inner, exported] =>
    (if typeOnly then lit "type " else []) ++ renamed inner exported
  | .exportNamespaceName, [name] => lit "*" ++ s.gap ++ lit "as " ++ name.code
  | .annotatedType, [type] => type.code
  | .typeParams, params => lit "<" ++ s.typeList .commas span params ++ lit ">"
  | .typeArgs, types => lit "<" ++ s.typeList .commas span types ++ lit ">"
  | .typeParam isIn isOut isConst, [name, constraint, default] =>
    words [(isConst, "const"), (isIn, "in"), (isOut, "out")] ++ name.code ++
      constraint.led (lit " extends ") (·.code) ++
      default.led (s.gap ++ lit "=" ++ s.gap) (·.code)
  | .qualified, [left, right] => left.code ++ lit "." ++ right.code
  | .exprWithTypeArgs, [e, args] => e.whole ++ args.code
  | .tupleElement, [label, type] =>
    (if label.isAbsent then [] else label.whole ++ lit ":" ++ s.gap) ++ type.code
  | .interfaceBody, members =>
    lit "\x7b" ++ s.list .members span (members.map (·.entry fun m => m.code ++ lit ";")) ++
      lit "\x7d"
  | .enumMember, [name, init] => name.code ++ init.led (s.gap ++ lit "=" ++ s.gap) Printed.whole
  | .moduleBlock, items => s.moduleBlock span items
  | .externalModule, [src] => lit "require(" ++ src.code ++ lit ")"
  | k, ps => s.tagPart span k ps

/-- Whether the comments before a node belong to its code. Those before a node that takes none
belong to its first part, if that starts where the node does, and else are lost. -/
def takesComments : Kind → Bool
  | .absent | .list => false
  | .expr k => match k with
    | .tagEmpty | .chainCall | .element | .fragment => false
    | _ => true
  | .stmt .break | .stmt .continue | .member (.accessor _) => false
  | .typeElement (.getter _) | .typeElement (.setter _) => false
  | .part k => match k with
    | .computed | .quasi _ _ _ | .function _ _ | .classBody _ | .opening _ | .closing
    | .openingFragment | .closingFragment | .tagAttribute | .tagAttributeSpread | .exprContainer
    | .spreadChild | .tagText _ _ | .importNamespace | .importNamed _ => false
    | _ => true
  | _ => true

/-- The code of a node whose parts are printed. -/
def nodeCode (s : Style) (kind : Kind) (span : Span) (ps : List Printed) : Doc :=
  let code := match kind with
    | .absent | .list => []
    | .module hashbang => s.module span hashbang ps
    | .expr k => s.expression span k ps
    | .pat k => s.pattern span k ps
    | .stmt k => s.statementCode span k ps
    | .item k => s.item span k ps
    | .type k => s.typeCode span k ps
    | .typeElement k => s.typeElement span k ps
    | .member k => s.classMember span k ps
    | .prop k => s.property k ps
    | .part k => s.partCode span k ps
  if takesComments kind then Doc.before span.lo ++ code else code

mutual
/-- The tree with the code of each node. No construct looks into a call or a tagged template: they
stand for no list, no function and no body. -/
def print (s : Style) : Tree → Printed
  | .node kind span parts =>
    let ps := printAll s parts
    .mk (.node kind span parts) (s.nodeCode kind span ps) (if kind.isApplied then [] else ps)

def printAll (s : Style) : List Tree → List Printed
  | [] => []
  | t :: ts => print s t :: printAll s ts
end

end Style

/-- The document of a tree: an expression is followed by the comments after it. -/
def Tree.doc (s : Style) (t : Tree) : Doc :=
  let p := s.print t
  if t.isExpr then p.whole else p.code

/-- The text of a tree in a style, with the style's comments. -/
def Tree.render (s : Style) (t : Tree) : Text := (t.doc s).render s.comments

/-- The text of a tree without comments. -/
def Tree.plain (dense : Bool) (source : Text) (t : Tree) : Text :=
  t.render { dense := dense, source := source }

/-- The text of a program with its comments. -/
def Program.render (p : Program) : Text :=
  p.tree.render { source := p.source, comments := p.comments }

end InlineTemplates.Script
