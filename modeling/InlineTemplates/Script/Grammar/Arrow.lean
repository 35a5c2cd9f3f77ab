import InlineTemplates.Script.Grammar.Literal

/-! # Parentheses and arrow functions

What stands in parentheses may turn out to be the parameters of an arrow function. It is read as
expressions, which are read again as patterns once the arrow is seen; where there are types, a part
with a type or a question mark is read as a pattern at once. -/

namespace InlineTemplates.Script

def isPattern (t : Tree) : Bool := match t.kind with
  | .pat _ => true
  | _ => false

namespace Parse

/-- A binary expression. An operand that fails before an operator is left out. -/
def binaryExpr (g : Grammar) : Parse Tree := do
  let left ← try g.unary catch e => do
    match ← someToken with
    | .keyword .in => if !(← context).allowIn then throw e
    | .keyword .instanceOf | .mark (.op _) => pure ()
    | _ => throw e
    note (← currentSpan) .expectedExpression
    pure (.expr .invalid e.span [])
  match left.kind with
  | .expr (.arrow _ _) => return left
  | _ => g.operators left 0

/-- The assignment after its left-hand side, or that side alone. -/
def assignmentRest (g : Grammar) (start : Nat) (left : Tree) : Parse Tree := do
  match ← token? with
  | some (.mark (.assign op)) =>
    let target ← if op == .plain then toTarget left else do
        let c ← context
        if !isTarget c.strict left then
          note left.span (if c.dialect.types then .leftHandSide else .assignToThis)
        match left.kind with
        | .expr (.name n) => pure (namePattern n left.span)
        | _ => if canBeTarget left then pure left else failAt left.span .invalidTarget
    advance
    let right ← g.assignment
    return .expr (.assign op) (← spanFrom start) [target, right]
  | _ => return left

/-- The branches of a conditional after its question mark, given its test. -/
def conditionalRest (g : Grammar) (start : Nat) (test : Tree) : Parse Tree := do
  let yes ← within (fun c => { c with inConditional := true, colonAhead := true, allowIn := true })
    g.assignment
  expect .colon
  let no ← within (fun c => { c with inConditional := true, colonAhead := false }) g.assignment
  return .expr .conditional ⟨start, no.span.hi⟩ [test, yes, no]

/-! ## What stands in parentheses -/

/-- A part that starts with a name, where there are types: a question mark after it may be that of
an optional parameter. -/
def namedPart (g : Grammar) (start : Nat) : Parse Tree := do
  let dots ← here
  if ← accept .ellipsis then
    let e ← withIn (binaryExpr g)
    return .ofPart .spread (← spanFrom dots) [e]
  assignmentRest g start (← binaryExpr g)

/-- Takes the question mark of an optional parameter after a part. -/
def optionalMark? (part : Tree) : Parse Bool := do
  if !(← typed) || !(← at? .question) then return false
  let ends : Option Token → Bool
    | some (.mark m) => [Mark.comma, .assign .plain, .colon, .parenClose].contains m
    | none => true
    | _ => false
  if !ends (← next?) then return false
  advance
  match part with
  | .node (.part .spread) span [e] =>
    note (← previous) .restOptional
    match e.kind with
    | .expr (.name _) => return true
    | _ => failAt span .optionalPattern
  | .node (.expr (.name _)) _ _ => return true
  | p => failAt p.span .optionalPattern

/-- A part read as a pattern, with its type and its initializer. -/
def typedPart (g : Grammar) (start : Nat) (part : Tree) (optional : Bool) : Parse Tree := do
  let pat ← match part with
    | .node (.part .spread) _ [e] => do
      let arg ← toPattern .binding e
      pure (Tree.pat .rest (← spanFrom start) [arg, .absent])
    | e => do
      let pat ← toPattern .binding e
      pure (if optional then (optionalPattern? pat).getD pat else pat)
  let type ← annotatedType? g
  let span ← if type.isAbsent then pure pat.span else spanFrom start
  let pat := match pat.kind with
    | .pat (.name _ _) | .pat (.array _) | .pat (.object _) | .pat .rest => withType pat type span
    | _ => pat
  if ← accept (.assign .plain) then
    let right ← g.assignment
    return .pat .default (← spanFrom start) [pat, right]
  return pat

/-- Parameters from the parts of parentheses and a comma at their end. -/
def paramsOfParts (parts : List Tree) (comma : Option Span) : Parse (List Tree) := do
  let rec go : List Tree → Parse (List Tree)
    | [] => return []
    | [.node (.part .spread) span [e]] => do
      if e.kind == .expr (.assign .plain) then note span .restInitializer
      if let some c := comma then note c .commaAfterRest
      let arg ← toPattern .binding e
      return [.pat .rest e.span [arg, .absent]]
    | [p] => do
      if isPattern p then
        if p.kind == .pat .rest then
          if let some c := comma then note c .commaAfterRest
        return [p]
      return [← toPattern .binding p]
    | p :: more => do
      let first ← match p.kind with
        | .part .spread | .pat .rest => do
          note p.span .restParameterNotLast
          pure []
        | _ => if isPattern p then pure [p] else do pure [← toPattern .binding p]
      return first ++ (← go more)
  let params ← go parts
  params.forM strictNames
  return params
where
  /-- Notes the names that strict code may not declare. -/
  strictNames : Tree → Parse Unit
    | .node (.pat (.name n _)) span _ => do
      if isEvalOrArguments n then noteInModule span .evalOrArguments
    | .node (.pat (.array _)) _ [.node .list _ ps, _] => namesOfAll ps
    | .node (.pat (.object _)) _ [.node .list _ ps, _] => namesOfAll ps
    | .node (.pat .rest) _ (arg :: _) => strictNames arg
    | .node (.pat .keyValue) _ [_, value] => strictNames value
    | .node (.pat .shorthand) _ (name :: _) => strictNames name
    | .node (.pat .default) _ (left :: _) => strictNames left
    | _ => return ()
  namesOfAll : List Tree → Parse Unit
    | [] => return ()
    | p :: ps => do
      strictNames p
      namesOfAll ps

/-- The parts in parentheses, with the parentheses, and a comma at their end. -/
def parenParts (g : Grammar) : Parse (List Tree × Option Span) := do
  expect .parenOpen
  let found ← iterate (([], none) : List Tree × Option Span) fun (acc, comma) => do
    if (← atEnd) || (← at? .parenClose) then return .inr (acc.reverse, comma)
    let async ← atName "async" <&&> nextIs fun t =>
      isMark .parenOpen t || isKeyword .function t || isWord t
    let start ← here
    modify fun s => { s with arrowStart := some start }
    let modified ← anyModifier
    let patStart ← here
    let named ← typed <&&>
      (atFreeWord <||> (at? .ellipsis <&&> nextAtFreeWord))
    let part ← if named then namedPart g start else withIn (spreadOrExpr g)
    let optional ← optionalMark? part
    let part ← if !optional && part.isExpr then
        if ← typed <&&> accept .question then conditionalRest g start part else pure part
      else pure part
    let part ← if optional || ((← typed) && (← at? .colon)) then typedPart g patStart part optional
      else pure part
    if modified then note (← spanFrom start) .parameterProperty
    let acc := part :: acc
    let acc ← if ← accept .arrow then arrowAfterName start async acc else pure acc
    if ← at? .parenClose then return .inl (acc, comma)
    expect .comma
    let comma ← if ← at? .parenClose then pure (some (← previous)) else pure comma
    return .inl (acc, comma)
  expect .parenClose
  return found
where
  /-- The body of an arrow function whose only parameter was read as the first part. -/
  arrowAfterName (start : Nat) (async : Bool) (acc : List Tree) : Parse (List Tree) := do
    let isName := match acc.reverse.head?.map (·.kind) with
      | some (.expr (.name _)) | some (.pat (.name _ _)) => true
      | _ => false
    if !isName then return acc
    let params ← paramsOfParts acc.reverse none
    let arrow ← arrowTail g start async params .absent .absent
    return arrow :: acc

/-! ## Arrow functions -/

/-- The return type of an arrow function inside a conditional, with its arrow and its body. Whether
the colon starts a type shows only after the body. -/
def conditionalArrow? (g : Grammar) (start : Nat) (async : Bool) (parts : List Tree) :
    Parse (Option Tree) := do
  let c ← context
  if !c.dialect.types || !c.inConditional || !(← at? .colon) then return none
  attempt do
    let type ← returnType g .colon
    expect .arrow
    let params ← paramsOfParts parts none
    let (body, isBlock) ← arrowBody g async (areSimple params)
    if c.colonAhead && !(← at? .colon) then unexpected "fail"
    return some (.expr (.arrow async isBlock) (← spanFrom start)
      [.list params, body, .absent, type])

/-- A return type before an arrow. -/
def arrowReturnType? (g : Grammar) : Parse (Option Tree) := do
  let c ← context
  if c.colonAhead || !c.dialect.types || !(← at? .colon) then return none
  attempt do
    let type ← returnType g .colon
    if !(← at? .arrow) then unexpected "fail"
    return some type

/-- An arrow function from its arrow on. -/
def arrowFromParts (g : Grammar) (start : Nat) (canBeArrow async : Bool) (parts : List Tree)
    (comma : Option Span) (type : Tree) : Parse Tree := do
  if ← lineBreak then failAt (← spanFrom start) .lineBreakBeforeArrow
  if !canBeArrow then failAt (← spanFrom start) .arrowNotAllowed
  expect .arrow
  let params ← paramsOfParts parts comma
  let arrow ← arrowTail g start async params .absent type
  match arrow.kind, ← token? with
  | .expr (.arrow _ true), some (.mark (.op _)) =>
    note (← currentSpan) .expectedSemicolon
    let e ← g.operators arrow 0
    if !(← atSemicolon) then note (← currentSpan) .expectedSemicolon
    return e
  | _, _ => return arrow

/-- Parentheses around an expression, an arrow function, or the call of a function named `async`,
whose word was taken before. -/
def parenOrArrow (g : Grammar) (canBeArrow : Bool) (asyncSpan : Option Span) : Parse Tree := do
  let start ← match asyncSpan with
    | some s => pure s.lo
    | none => here
  let (parts, comma) ← withIn (withoutColon (parenParts g))
  if let some arrow ← conditionalArrow? g start asyncSpan.isSome parts then return arrow
  let type ← arrowReturnType? g
  if parts.any isPattern || type.isSome || (← at? .arrow) then
    return ← arrowFromParts g start canBeArrow asyncSpan.isSome parts comma (.ofOption type)
  for p in parts do
    let e := if p.kind == .part .spread then p.part 0 else p
    if e.kind == .expr .object then
      for prop in e.parts do
        if prop.kind == .prop .assign then note prop.span .assignmentProperty
  if let some s := asyncSpan then
    let callee := Tree.expr (.name (text "async")) s []
    return .expr .call (← spanFrom s.lo) [callee, .list parts, .absent]
  match parts.find? (·.kind == .part .spread) with
  | some p => failAt (p.part 0).span .spreadInParens
  | none =>
    match parts with
    | [] => failAt (← spanFrom start) .emptyParens
    | [e] => return .expr .paren (← spanFrom start) [e]
    | first :: more =>
      let span : Span := ⟨first.span.lo, (more.getLast?.getD first).span.hi⟩
      return .expr .paren (← spanFrom start) [.expr .sequence span parts]

/-- An async arrow function with type parameters, from these on. -/
def genericAsyncArrow? (g : Grammar) (start : Nat) : Parse (Option Tree) := do
  if !(← at? (.op .lt)) && !(← at? .tagStart) then return none
  let head ← attempt do
    let typeParams ← typeParams g false false
    expect .parenOpen
    let params ← parameters g
    expect .parenClose
    let type ← if ← at? .colon then returnType g .colon else pure .absent
    expect .arrow
    return some (typeParams, params.map (·.part 0), type)
  match head with
  | none => return none
  | some (typeParams, params, type) =>
    return some (← arrowTail g start true params typeParams type)

end Parse
end InlineTemplates.Script
