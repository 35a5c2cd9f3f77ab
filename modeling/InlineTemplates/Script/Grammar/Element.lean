import InlineTemplates.Script.Grammar.Literal

/-! # Elements written as tags -/

namespace InlineTemplates.Script

/-- The name of a tag as messages show it. -/
def tagNameShown : Tree → String
  | .node (.part (.tagName n)) _ _ => String.ofList n
  | .node (.expr .tagNamespaced) _ [a, b] => tagNameShown a ++ ":" ++ tagNameShown b
  | .node (.expr .tagMember) _ [a, b] => tagNameShown a ++ "." ++ tagNameShown b
  | _ => ""

namespace Parse

/-- A word in a tag. -/
def tagWord : Parse Tree := do
  match ← someToken with
  | .jsxName n =>
    advance
    return .ofPart (.tagName n) (← previous) []
  | _ =>
    if (← context).forcedTags then
      let (n, span) ← reference
      return .ofPart (.tagName n) span []
    unexpected "jsx identifier"

/-- A word in a tag, or two with a colon between them. -/
def namespacedTagWord : Parse Tree := do
  let start ← here
  let first ← tagWord
  if !(← accept .colon) then return first
  let second ← tagWord
  return .expr .tagNamespaced ⟨start, second.span.hi⟩ [first, second]

/-- The name of an element. -/
def elementName : Parse Tree := do
  let start ← here
  let first ← namespacedTagWord
  iterate first fun left => do
    if !(← accept .dot) then return .inr left
    let right ← tagWord
    return .inl (.expr .tagMember (← spanFrom start) [left, right])

/-- An expression in braces. Dots before it mean nothing where one expression is wanted. -/
def expressionContainer (g : Grammar) : Parse Tree := do
  let start ← here
  advance
  let e ← if ← at? .braceClose then do
      let p ← here
      pure (Tree.expr .tagEmpty ⟨p, p⟩ [])
    else do
      let _ ← accept .ellipsis
      g.expr
  expect .braceClose
  return .ofPart .exprContainer (← spanFrom start) [e]

/-- Children from an expression in braces with dots before it. -/
def spreadChild (g : Grammar) : Parse Tree := do
  let start ← here
  advance
  expect .ellipsis
  let e ← g.expr
  expect .braceClose
  return .ofPart .spreadChild (← spanFrom start) [e]

/-- The value of an attribute. -/
def attributeValue (g : Grammar) : Parse Tree := do
  let start ← here
  match ← someToken with
  | .mark .braceOpen =>
    let c ← expressionContainer g
    if (c.part 0).kind == .expr .tagEmpty then failAt (← spanFrom start) .emptyJsxAttribute
    return c
  | .string v raw =>
    advance
    return .ofPart (.string v (some raw)) (← previous) []
  | .mark .tagStart => g.element
  | _ => fail .invalidJsxValue

def tagAttribute (g : Grammar) : Parse Tree := do
  let start ← here
  if ← accept .braceOpen then
    expect .ellipsis
    let e ← g.assignment
    expect .braceClose
    return .ofPart .tagAttributeSpread (← spanFrom start) [e]
  let name ← namespacedTagWord
  let value ← if ← accept (.assign .plain) then
      within ({ · with inConditional := false, colonAhead := false }) (attributeValue g)
    else pure .absent
  return .ofPart .tagAttribute (← spanFrom start) [name, value]

/-- The rest of a tag that opens an element and started at `start`. -/
def openingTag (g : Grammar) (start : Nat) : Parse Tree := do
  if ← accept .tagEnd then return .ofPart .openingFragment (← spanFrom start) []
  let name ← elementName
  let typeArgs ← if (← typed) && (← at? (.op .lt)) then do
      pure (Tree.ofOption (← attempt do return some (← typeArgs g)))
    else pure .absent
  let attributes ← collect do
    if (← atEnd) || (← at? (.op .div)) || (← at? .tagEnd) then return none
    return some (← tagAttribute g)
  let selfClosing ← accept (.op .div)
  let closed ← accept .tagEnd
  if !closed then
    let forced ← if (← context).forcedTags then accept (.op .gt) else pure false
    if !forced then unexpected "> (jsx closing tag)"
  return .ofPart (.opening selfClosing) (← spanFrom start) [name, .list attributes, typeArgs]

/-- The rest of a tag that closes an element and started at `start`. -/
def closingTag (start : Nat) : Parse Tree := do
  if ← accept .tagEnd then return .ofPart .closingFragment (← spanFrom start) []
  let name ← elementName
  expect .tagEnd
  return .ofPart .closing (← spanFrom start) [name]

/-- The children of an element and the tag that closes it. -/
def children (g : Grammar) : Parse (List Tree × Tree) :=
  iterate ([] : List Tree) fun acc => do
    match ← someToken with
    | .mark .tagStart =>
      let start ← here
      if ← nextAt (.op .div) then
        advance
        let _ ← token?
        advance
        return .inr (acc.reverse, ← closingTag start)
      return .inl ((← g.element) :: acc)
    | .jsxText value raw =>
      advance
      return .inl (.ofPart (.tagText value raw) (← previous) [] :: acc)
    | .mark .braceOpen =>
      let child ← if ← nextAt .ellipsis then spreadChild g else expressionContainer g
      return .inl (child :: acc)
    | _ => unexpected "< (jsx tag start), jsx text or \x7b"

/-- An element or a fragment. -/
def element (g : Grammar) : Parse Tree := do
  let start ← here
  let forced ← at? (.op .lt)
  advance
  let inner (c : Context) : Context :=
    { c with
      forcedTags := forced, longAngles := false, inConditional := false, colonAhead := false }
  within inner do
    let opening ← openingTag g start
    match opening.kind with
    | .part (.opening true) =>
      return .expr .element (← spanFrom start) [opening, .list [], .absent]
    | .part .openingFragment =>
      let (cs, closing) ← children g
      if closing.kind == .part .closing then failAt closing.span .jsxClosingFragment
      return .expr .fragment (← spanFrom start) [opening, .list cs, closing]
    | _ =>
      let (cs, closing) ← children g
      let tag := tagNameShown (opening.part 0)
      if closing.kind == .part .closingFragment || tagNameShown (closing.part 0) != tag then
        failAt closing.span (.jsxClosing tag)
      return .expr .element (← spanFrom start) [opening, .list cs, closing]

end Parse
end InlineTemplates.Script
