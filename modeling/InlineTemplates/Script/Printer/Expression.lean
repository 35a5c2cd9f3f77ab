import InlineTemplates.Script.Printer.Function

/-! # Expressions in print -/

namespace InlineTemplates.Script.Style

/-- What is called, made or looked into. Something that is made keeps its parentheses here, and
comments after it are left out. -/
def callee (s : Style) (p : Printed) : Doc :=
  match p.kind, p.parts with
  | .expr (.new true), [_, args, _] =>
    p.code ++ if s.dense && args.parts.isEmpty then lit "()" else []
  | .expr (.new false), _ | .part _, _ => p.code
  | _, _ => p.whole

/-- The property that is looked up by its name in a value. -/
def dotted (prop : Printed) : Doc := Doc.before (prop.span.lo - 1) ++ lit "." ++ prop.code

/-- A property of a value. A number takes a dot of its own first. -/
def member (s : Style) (obj prop : Printed) : Doc :=
  match obj.kind with
  | .expr (.number x raw) =>
    obj.code ++ (if Spelling.takesDot s.dense x raw then Doc.before (prop.span.lo - 2) ++ lit "."
      else []) ++ dotted prop
  | _ => s.callee obj ++ dotted prop

/-- An element of a value. -/
def index (s : Style) (obj prop : Printed) : Doc :=
  match obj.kind with
  | .expr (.number _ _) => obj.code ++ prop.code
  | _ => s.callee obj ++ prop.code

/-- Arguments in parentheses. -/
def arguments (s : Style) (span : Span) (args : List Printed) : Doc :=
  lit "(" ++ s.list .commas span (args.map (·.entry Printed.whole)) ++ lit ")"

/-- A chain's last link. -/
def chain (s : Style) (optional : Bool) (span : Span) (base : Printed) : Doc :=
  let mark := if optional then lit "?." else []
  match base.kind, base.parts with
  | .expr .member, [obj, prop] => s.callee obj ++ (if optional then mark else lit ".") ++ prop.code
  | .expr .index, [obj, prop] => s.callee obj ++ mark ++ prop.code
  | .expr .chainCall, [callee, args, _] => callee.whole ++ mark ++ s.arguments span args.parts
  | _, _ => []

def array (s : Style) (span : Span) (es : List Printed) : Doc :=
  let lastMissing := (es.getLast?.map Printed.isAbsent).getD false
  let style : ListStyle :=
    { ListStyle.elements with finalComma := if lastMissing then .always else .never }
  let form (p : Printed) : Doc := if p.isAbsent then [] else
    match p.kind with
    | .part _ => p.code
    | _ => p.whole
  lit "[" ++ s.list style span (es.map (·.entry form)) ++ lit "]"

def object (s : Style) (span : Span) (props : List Printed) : Doc :=
  let body := if props.isEmpty && s.bare span then []
    else s.list .properties span (props.map (·.entry (·.code)))
  lit "\x7b" ++ body ++ lit "\x7d"

/-- Whether comments before an operand can part it from the word before it: one that ends a line
does, and before an assignment each one counts. -/
def isParted (s : Style) : Tree → Bool
  | .node (.expr k) span ps =>
    (s.comments.on .leading span.lo).any Comment.endsLine ||
      match k, ps with
      | .assign _, _ => s.hasLeading span.lo
      | .call, e :: _ | .member, e :: _ | .index, e :: _ | .binary _, e :: _ | .conditional, e :: _
      | .sequence, e :: _ | .chain _, e :: _ | .chainCall, e :: _ => isParted s e
      | _, _ => false
  | _ => false

/-- An argument that comments may part from the word before it stands in parentheses. -/
def operand (s : Style) (word : Bool) (p : Printed) : Doc :=
  if s.isParted p.tree then lit "(" ++ p.whole ++ lit ")" else s.gapIf word ++ p.whole

def binary (s : Style) (op : BinaryOp) (left right : Printed) : Doc :=
  let isUpdate (k : Kind) (prefixed : Bool) : Bool := match k with
    | .expr (.update _ b) => b == prefixed
    | _ => false
  let isUnary := match right.kind with
    | .expr (.unary _) => true
    | _ => false
  let decrement := match left.kind with
    | .expr (.update increment false) => !increment
    | _ => false
  let before := if s.dense then
      if op.isWord then left.tree.endsWord
      else decrement && [BinaryOp.gt, .shiftRight, .shiftRightZero, .gtEq].contains op
    else op.isWord || isUpdate left.kind false
  let after := if s.dense then
      if op.isWord then right.tree.startsWord
      else if op == .div then s.hasLeading right.span.lo
      else Tree.needsBlankAfter op right.tree
    else op.isWord || isUnary || isUpdate right.kind true
  left.whole ++ s.gapIf before ++ lit op.symbol ++ s.gapIf after ++ right.whole

def arrow (s : Style) (async isBlock : Bool) (span : Span) (params body typeParams type : Printed) :
    Doc :=
  let single := match params.parts with
    | [p] => match p.kind with
      | .pat (.name _ _) => true
      | _ => false
    | _ => false
  let parens := !s.dense || !single
  (if async then lit "async" ++ s.gapIf single else []) ++ typeParams.code ++
    (if parens then lit "(" else []) ++
    s.list .commas span (params.parts.map (·.entry Printed.whole)) ++
    (if parens then lit ")" else []) ++
    type.led (lit ":" ++ s.gap) (fun t => t.code ++ s.gap) ++ lit "=>" ++
    (if isBlock then body.code else [.indent] ++ body.whole ++ [.dedent])

/-- The code of a class after its name. -/
def classRest (s : Style) : Printed → Doc
  | .mk (.node _ span _) _ [members, parent, _, parentArgs, implemented] =>
    let extended := parent.led (lit " extends") fun p =>
      s.gapIf p.tree.startsWord ++ p.whole ++ parentArgs.code
    let promised := if implemented.parts.isEmpty then [] else
      lit " implements " ++ s.list .commas span (implemented.parts.map (·.entry (·.code)))
    extended ++ promised ++ s.gap ++ lit "\x7b" ++
      s.list .members span (members.parts.map (·.entry (·.code))) ++ lit "\x7d"
  | _ => []

/-- A class from its first word on. -/
def classHead (_ : Style) (name body : Printed) : Doc :=
  let typeParams := (body.parts[2]?.map (·.code)).getD []
  let abstract := match body.kind with
    | .part (.classBody a) => a
    | _ => false
  (if abstract then lit "abstract " else []) ++ lit "class" ++
    name.led space fun n => n.code ++ typeParams

/-- The code of an expression without the comments before it. -/
def expression (s : Style) (span : Span) : ExprKind → List Printed → Doc
  | .this, _ => lit "this"
  | .array, es => s.array span es
  | .object, props => s.object span props
  | .function, [name, f] => functionHead space name f ++ s.functionRest f
  | .unary op, [e] =>
    lit op.symbol ++
      (if op.isWord then s.gapIf (Tree.needsBlankUnder op e.tree)
       else if Tree.needsBlankUnder op e.tree then space else []) ++ e.whole
  | .update increment prefixed, [e] =>
    let mark := lit (if increment then "++" else "--")
    if prefixed then mark ++ e.whole else e.whole ++ mark
  | .binary op, [left, right] => s.binary op left right
  | .assign op, [target, value] => target.code ++ s.gap ++ lit op.symbol ++ s.gap ++ value.whole
  | .member, [obj, prop] => s.member obj prop
  | .superMember, [obj, prop] => obj.code ++ dotted prop
  | .index, [obj, prop] => s.index obj prop
  | .superIndex, [obj, prop] => obj.code ++ prop.code
  | .conditional, [test, yes, no] =>
    test.whole ++ s.gap ++ lit "?" ++ s.gap ++ yes.whole ++ s.gap ++ lit ":" ++ s.gap ++ no.whole
  | .call, [callee, args, typeArgs] =>
    s.callee callee ++ typeArgs.code ++ s.arguments span args.parts
  | .new withArgs, [callee, args, typeArgs] =>
    lit "new" ++ s.gapIf callee.tree.startsWord ++ callee.whole ++ typeArgs.code ++
      (if withArgs && !(s.dense && args.parts.isEmpty) then s.arguments span args.parts else [])
  | .sequence, es => (lit "," ++ s.gap).intercalate (es.map Printed.whole)
  | .name n, _ => [.text n]
  | .string v raw, _ => [.text (Spelling.string s.dense v raw)]
  | .number v raw, _ => [.text (Spelling.number s.dense v raw)]
  | .bigInt v raw, _ => [.text (Spelling.bigInt s.dense v raw)]
  | .bool b, _ => lit (if b then "true" else "false")
  | .null, _ => lit "null"
  | .regex body flags, _ => [.text (['/'] ++ body ++ ['/'] ++ flags)]
  | .template, [exprs, quasis] => s.template Printed.whole exprs quasis
  | .tagged, [tag, typeArgs, template] => s.callee tag ++ typeArgs.code ++ taggedTemplate template
  | .arrow async isBlock, [params, body, typeParams, type] =>
    s.arrow async isBlock span params body typeParams type
  | .classExpr, [name, body] => s.classHead name body ++ s.classRest body
  | .yield delegate, [arg] =>
    lit "yield" ++ (if delegate then lit "*" else []) ++
      arg.led [] (fun p => s.operand (!delegate && p.tree.startsWord) p)
  | .newTarget, _ => lit "new.target"
  | .importMeta, _ => lit "import.meta"
  | .await, [e] => lit "await " ++ e.whole
  | .paren, [e] => lit "(" ++ e.whole ++ lit ")"
  | .element, [opening, children, closing] =>
    opening.code ++ children.parts.flatMap (·.code) ++ closing.code
  | .fragment, [opening, children, closing] =>
    opening.code ++ children.parts.flatMap (·.code) ++ closing.code
  | .tagMember, [left, right] => left.code ++ lit "." ++ right.code
  | .tagNamespaced, [left, right] => left.code ++ lit ":" ++ right.code
  | .tagEmpty, _ => []
  | .typeAssertion, [e, type] => lit "<" ++ type.code ++ lit ">" ++ e.whole
  | .constAssertion, [e] => e.whole ++ lit " as const"
  | .nonNull, [e] => e.whole ++ lit "!"
  | .asType, [e, type] => e.whole ++ lit " as " ++ type.code
  | .instantiation, [e, args] => e.whole ++ args.code
  | .satisfies, [e, type] => e.whole ++ lit " satisfies " ++ type.code
  | .privateName n, _ => [.text ('#' :: n)]
  | .chain optional, [base] => s.chain optional span base
  | .invalid, _ => lit "<invalid>"
  | _, _ => []

end InlineTemplates.Script.Style
