import InlineTemplates.Script.Printer.Expression

/-! # Statements in print -/

namespace InlineTemplates.Script.Style

/-- The names and values that a statement declares. -/
def declarators (s : Style) (span : Span) (ds : List Printed) : Doc :=
  s.list .commas span (ds.map (·.entry (·.code)))

/-- A word, and a label on the same line. -/
def jump (word : String) (label : Printed) : Doc :=
  lit word ++ label.led space (·.code) ++ lit ";"

/-- The code of what a loop goes through. -/
def loopHead (p : Printed) : Doc :=
  match p.kind with
  | .stmt _ => p.code
  | _ => p.whole

def forEach (s : Style) (word : String) (left right body : Printed) : Doc :=
  lit "(" ++ loopHead left ++ s.gapIf left.tree.endsWord ++ lit word ++
    s.gapIf right.tree.startsWord ++ right.whole ++ lit ")" ++ s.statement body

/-- A namespace after its first word: names joined by dots and the items. -/
def namespaceRest (s : Style) : Printed → Doc
  | .mk (.node (.stmt (.namespace _ _)) _ _) _ [name, body] =>
    name.code ++
      match body with
      | .mk (.node (.stmt (.namespace _ _)) _ _) _ _ => lit "." ++ namespaceRest s body
      | .mk t code _ => if t.isAbsent then [] else s.gap ++ code
  | _ => []

/-- The code of a statement without the comments before it. Where variables are declared, the
semicolon is left to what contains them. -/
def statementCode (s : Style) (span : Span) : StmtKind → List Printed → Doc
  | .block, body => s.block span body
  | .empty, _ => lit ";"
  | .debugger, _ => lit "debugger;"
  | .with, [subject, body] =>
    lit "with" ++ s.gap ++ lit "(" ++ subject.whole ++ lit ")" ++ s.statement body
  | .return, [arg] =>
    lit "return" ++ arg.led [] (fun p => s.operand p.tree.startsWord p) ++ lit ";"
  | .throw, [arg] => lit "throw" ++ s.operand arg.tree.startsWord arg ++ lit ";"
  | .labelled, [label, body] => label.code ++ lit ":" ++ s.gap ++ s.statement body
  | .break, [label] => jump "break" label
  | .continue, [label] => jump "continue" label
  | .if, [test, yes, no] =>
    let isBlock := yes.kind == .stmt .block
    lit "if" ++ s.gap ++ lit "(" ++ test.whole ++ lit ")" ++ s.gap ++ s.statement yes ++
      no.led ((if isBlock then s.gap else []) ++ lit "else")
        (fun p => s.gapIf p.tree.stmtStartsWord ++ s.statement p)
  | .switch, [subject, cases] =>
    lit "switch(" ++ subject.whole ++ lit ")\x7b" ++
      s.list .statements span (cases.parts.map (·.entry (·.code))) ++ lit "\x7d"
  | .try, [body, handler, finalizer] =>
    lit "try" ++ s.gap ++ body.code ++ handler.led s.gap (·.code) ++
      finalizer.led (s.gap ++ lit "finally") (·.code)
  | .while, [test, body] => lit "while(" ++ test.whole ++ lit ")" ++ s.statement body
  | .doWhile, [test, body] =>
    lit "do" ++ s.gapIf body.tree.stmtStartsWord ++ s.statement body ++ lit "while" ++ s.gap ++
      lit "(" ++ test.whole ++ lit ")"
  | .for, [init, test, update, body] =>
    lit "for(" ++ init.led [] loopHead ++ lit ";" ++ test.led s.gap Printed.whole ++ lit ";" ++
      update.led s.gap Printed.whole ++ lit ")" ++ s.statement body
  | .forIn, [left, right, body] => lit "for" ++ s.forEach "in" left right body
  | .forOf await, [left, right, body] =>
    lit "for" ++ (if await then lit " await" else []) ++ s.gap ++ s.forEach "of" left right body
  | .expr, [e] => e.whole ++ lit ";"
  | .var kind declare, ds =>
    let word := match kind with
      | .var => "var"
      | .let => "let"
      | .const => "const"
    let bracket := match ds with
      | .mk t _ _ :: _ => match (t.part 0).kind with
        | .pat (.array _) | .pat (.object _) => true
        | _ => false
      | [] => false
    (if declare then lit "declare " else []) ++ lit word ++ s.gapIf (!bracket) ++
      s.declarators span ds
  | .using await, ds =>
    (if await then lit "await " else []) ++ lit "using " ++ s.declarators span ds
  | .function declare, [name, function] =>
    (if declare then lit "declare " else []) ++ functionHead s.gap name function ++
      s.functionRest function
  | .classDecl declare, [name, body] =>
    (if declare then lit "declare " else []) ++ s.classHead name body ++ s.classRest body
  | .interface declare, [name, params, parents, body] =>
    (if declare then lit "declare " else []) ++ lit "interface " ++ name.code ++ params.code ++
      (if parents.parts.isEmpty then [] else lit " extends " ++
        s.list .commas span (parents.parts.map (·.entry (·.code)))) ++ s.gap ++ body.code
  | .typeAlias declare, [name, params, type] =>
    (if declare then lit "declare " else []) ++ lit "type " ++ name.code ++ params.code ++ s.gap ++
      lit "=" ++ s.gap ++ type.code ++ lit ";"
  | .enum declare const, [name, members] =>
    (if declare then lit "declare " else []) ++ (if const then lit "const " else []) ++
      lit "enum " ++ name.code ++ s.gap ++ lit "\x7b" ++
      s.list .enumMembers span (members.parts.map (·.entry (·.code))) ++ lit "\x7d"
  | .namespace declare global, ps =>
    let word := if global then [] else match ps with
      | .mk (.node (.part (.string _ _)) _ _) _ _ :: _ => lit "module "
      | _ => lit "namespace "
    (if declare then lit "declare " else []) ++ word ++
      s.namespaceRest (.mk (.node (.stmt (.namespace declare global)) span []) [] ps)
  | _, _ => []

/-- A declaration as a part of an export. -/
def declaration (p : Printed) : Doc :=
  match p.kind with
  | .stmt (.var _ _) => p.code ++ lit ";"
  | _ => p.code

end InlineTemplates.Script.Style
