import InlineTemplates.Script.Lexer.State

/-! # How a token changes what encloses the next one -/

namespace InlineTemplates.Script.Lexer

/-- Whether an opening brace opens a block here, and not an object. -/
def opensBlock (l : Lexer) : Bool :=
  let here := l.enclosure
  match l.last with
  | some .colon =>
    if here == some .blockBrace then true
    else if here == some .exprBrace then false
    else !l.exprAllowed
  | some (.keyword .return) | some (.keyword .yield) => l.lineBreak
  | some (.keyword .else) | some .semicolon | none | some .parenClose => true
  | some .braceOpen =>
    (here == some .exprBrace && l.enclosures[1]? == some .openingTag) || here == some .blockBrace
  | some (.operator .lt) | some (.operator .gt) => true
  | some .arrow => true
  | some (.other false _) => l.lineBreak || !l.exprAllowed
  | _ => !l.exprAllowed

/-- The enclosures after a closing bracket or brace, and whether an expression may follow. -/
def close (enclosures : List Enclosure) : List Enclosure × Bool :=
  match enclosures with
  | [] | [_] => (enclosures, true)
  | out :: below =>
    match out, below with
    | .blockBrace, .functionExpr :: more | .blockBrace, .classExpr :: more => (more, false)
    | .templateBrace, .template :: _ => (below, false)
    | .templateBrace, _ => (below, true)
    | _, _ => (below, !out.isExpr)

/-- The enclosures after a token, and whether an expression may follow. -/
def enclose (l : Lexer) (start : Nat) (token : Token) : List Enclosure × Bool × Nat :=
  let es := l.enclosures
  let keep (allowed : Bool) := (es, allowed, l.templateStart)
  let push (e : Enclosure) (allowed : Bool) := (e :: es, allowed, l.templateStart)
  let cls := TokenClass.of token
  match token with
  | .mark .parenClose | .mark .braceClose =>
    let (below, allowed) := close es
    (below, allowed, l.templateStart)
  | .mark .colon =>
    match es with
    | .functionExpr :: below | .classExpr :: below => (below, true, l.templateStart)
    | _ => keep true
  | .mark .braceOpen =>
    if l.enclosure == some .openingTag then push .exprBrace true
    else if l.enclosure == some .tagContent then push .templateBrace true
    else push (if l.opensBlock then .blockBrace else .exprBrace) true
  | .mark (.op .div) =>
    if l.last == some .tagStart then (.closingTag :: es.drop 2, false, l.templateStart)
    else keep true
  | .mark .dollarBrace => push .templateBrace true
  | .mark .parenOpen =>
    match l.last with
    | some (.keyword .if) | some (.keyword .with) | some (.keyword .while) =>
      push (.stmtParen false) true
    | some (.keyword .for) => push (.stmtParen true) true
    | _ => push .exprParen true
  | .mark .plusPlus | .mark .minusMinus => keep l.exprAllowed
  | .mark .backquote =>
    if l.enclosure == some .template then (es.drop 1, false, l.templateStart)
    else (.template :: es, false, start)
  | .mark .tagStart => (.openingTag :: .tagContent :: es, false, l.templateStart)
  | .mark .tagEnd =>
    let out := l.enclosure
    let below := es.drop 1
    if (out == some .openingTag && l.last == some (.operator .div)) || out == some .closingTag then
      let below := below.drop 1
      (below, below.head? == some .tagContent, l.templateStart)
    else (below, true, l.templateStart)
  | .keyword k =>
    if k.isLiteral then keep cls.beforeExpr
    else if l.last == some .dot then keep false
    else if k == .function || k == .classWord then
      if l.exprAllowed && !l.opensBlock then
        push (if k == .function then .functionExpr else .classExpr) false
      else keep false
    else keep cls.beforeExpr
  | .name n plain =>
    if n == text "of" && !plain && l.enclosure == some (.stmtParen true) then
      keep (!((l.last.map (·.beforeExpr)).getD false))
    else match l.last with
      | some (.keyword .let) | some (.keyword .const) | some (.keyword .var) =>
        keep l.lineBreakBeforeLast
      | _ => keep false
  | _ => keep cls.beforeExpr

/-- The lexer after a token that starts at `start`. -/
def remember (l : Lexer) (start : Nat) (token : Token) : Lexer :=
  let (es, allowed, templateStart) := l.enclose start token
  { l with
    enclosures := es
    exprAllowed := allowed
    templateStart := templateStart
    last := some (TokenClass.of token)
    lastEnd := l.position
    lineBreakBeforeLast := l.lineBreak }

end InlineTemplates.Script.Lexer
