import InlineTemplates.Script.Grammar.Parameter

/-! # Types -/

namespace InlineTemplates.Script.Parse

/-- Runs a step in a type. -/
def inType {α : Type} (step : Parse α) : Parse α := within ({ · with inType := true }) step

/-- Runs a step outside all tags and templates, and comes back to them afterwards. -/
def withoutEnclosures {α : Type} (step : Parse α) : Parse α := do
  let saved := (← get).lexer.enclosures
  let setTo (es : List Enclosure) : Parse Unit :=
    modify fun s => { s with lexer := { s.lexer with enclosures := es } }
  setTo (saved.drop (saved.length - 1))
  let result ← step
  setTo saved
  return result

def setExprAllowed (allowed : Bool) : Parse Unit :=
  modify fun s => { s with lexer := { s.lexer with exprAllowed := allowed } }

/-- Two angle marks that touch are one operator outside types. -/
def joinedAngle? : Mark → Mark → Option Mark
  | .op .gt, .op .gt => some (.op .shiftRight)
  | .op .gt, .assign .plain => some (.op .gtEq)
  | .op .gt, .op .shiftRight => some (.op .shiftRightZero)
  | .op .gt, .op .gtEq => some (.assign (.with .shiftRight))
  | .op .gt, .assign (.with .shiftRight) => some (.assign (.with .shiftRightZero))
  | .op .lt, .op .lt => some (.op .shiftLeft)
  | .op .lt, .assign .plain => some (.op .ltEq)
  | .op .lt, .op .ltEq => some (.assign (.with .shiftLeft))
  | _, _ => none

/-- Joins the current angle mark with the one that touches it. -/
def joinAngles : Parse Unit := do
  let some current ← placed? | return ()
  let some following ← nextPlaced? | return ()
  if current.span.hi != following.span.lo then return ()
  match current.token, following.token with
  | .mark a, .mark b =>
    match joinedAngle? a b with
    | some m =>
      let joined : PlacedToken :=
        { current with token := .mark m, span := ⟨current.span.lo, following.span.hi⟩ }
      modify fun s => { s with current := some joined, following := none }
    | none => return ()
  | _, _ => return ()

/-- Elements separated by commas up to the mark that closes them, which has to be there. -/
def separated (close : Parse Bool) (element : Parse Tree) : Parse (List Tree) :=
  iterate ([] : List Tree) fun acc => do
    let _ ← someToken
    if ← close then return .inr acc.reverse
    let e ← element
    if ← accept .comma then return .inl (e :: acc)
    let _ ← someToken
    if ← close then return .inr (e :: acc).reverse
    expect .comma
    return .inl (e :: acc)

/-- Type arguments in angle marks. -/
def typeArgs (g : Grammar) : Parse Tree := do
  let start ← here
  let types ← inType <| withoutEnclosures do
    if ← at? (.op .shiftLeft) then
      if let some t ← placed? then
        let second : PlacedToken := ⟨.mark (.op .lt), ⟨t.span.lo + 1, t.span.hi⟩, false⟩
        modify fun s => { s with current := some second }
    else expect (.op .lt)
    separated (at? (.op .gt)) g.type
  setExprAllowed false
  expect (.op .gt)
  return .ofPart .typeArgs (← spanFrom start) types

/-- Type arguments on the same line, where there are any. -/
def typeArgs? (g : Grammar) : Parse Tree := do
  if !(← lineBreak) && ((← at? (.op .lt)) || (← at? (.op .shiftLeft))) then
    within ({ · with longAngles := false }) (typeArgs g)
  else return .absent

/-- The words that can stand before a type parameter, and the errors of those that may not. -/
def typeParamModifiers (inOut const : Bool) : Parse (Bool × Bool × Bool) :=
  iterate (false, false, false) fun (isIn, isOut, isConst) => do
    let words := ["public", "private", "protected", "readonly", "abstract", "const", "override",
      "in", "out"]
    match ← modifier? words false with
    | none => return .inr (isIn, isOut, isConst)
    | some w =>
      let span ← previous
      if w == "const" then
        if !const then note span (.constModifierPosition w)
        return .inl (isIn, isOut, true)
      if w == "in" || w == "out" then
        if !inOut then note span (.variancePosition w)
        else if if w == "in" then isIn else isOut then note span (.memberModifierTwice w)
        else if w == "in" && isOut then note span (.memberModifierOrder w "out")
        return .inl (isIn || w == "in", isOut || w == "out", isConst)
      note span (.typeParameterModifier w)
      return .inl (isIn, isOut, isConst)

/-- The type after a mark or a word, where it stands there. -/
def typeAfter? (g : Grammar) (taken : Parse Bool) : Parse Tree :=
  inType do if ← taken then g.type else return .absent

def typeParam (g : Grammar) (inOut const : Bool) : Parse Tree := do
  let start ← here
  let (isIn, isOut, isConst) ← typeParamModifiers inOut const
  let name ← inType anyName
  let constraint ← typeAfter? g (acceptKeyword .extends)
  let default ← typeAfter? g (accept (.assign .plain))
  return .ofPart (.typeParam isIn isOut isConst) (← spanFrom start) [name, constraint, default]

/-- Type parameters in angle marks. -/
def typeParams (g : Grammar) (inOut const : Bool) : Parse Tree :=
  inType <| withoutEnclosures do
    let start ← here
    if !(← at? (.op .lt)) && !(← at? .tagStart) then unexpected "< (jsx tag start)"
    advance
    let params ← separated (at? (.op .gt)) (typeParam g inOut const)
    expect (.op .gt)
    return .ofPart .typeParams (← spanFrom start) params

def typeParams? (g : Grammar) (inOut const : Bool) : Parse Tree := do
  if (← typed) && ((← at? (.op .lt)) || (← at? .tagStart)) then typeParams g inOut const
  else return .absent

/-! ## Names and signatures -/

/-- A name or names joined by dots. -/
def entityName (anyWords : Bool) : Parse Tree := do
  let start ← here
  let first ← anyName
  if first.kind == .part (.name (text "void")) then
    let (p, q) := (← here, ← lastEnd)
    note ⟨min p q, max p q⟩ .expectedSemicolon
  iterate first fun left => do
    if !(← accept .dot) then return .inr left
    if !(← at? .hash) && !(← atWord) then
      let p ← here
      note ⟨p, p⟩ .expectedTypeName
      return .inr left
    let right ← if anyWords then anyName else do
        let (n, span) ← nameWord false false
        pure (Tree.ofPart (.name n) span [])
    return .inl (.ofPart .qualified (← spanFrom start) [left, right])

/-- A type after a colon or an arrow, which may say what a value is known to be. -/
def returnType (g : Grammar) (mark : Mark) : Parse Tree :=
  inType do
    let start ← here
    if !(← accept mark) then fail (.expected mark.symbol (← currentOptional))
    let predicateStart ← here
    let asserts ← atName "asserts" <&&> nextAtFreeWord
    if asserts then advance
    let is ← atFreeWord <&&> nextIs (isName "is") <&&> notM lineBreakAfter
    if !asserts && !is then
      let t ← g.type
      return .ofPart .annotatedType (← spanFrom start) [t]
    let name ← anyName
    let known ← if is then do
        advance
        let p ← here
        let t ← g.type
        pure (Tree.ofPart .annotatedType (← spanFrom p) [t])
      else pure .absent
    let predicate := Tree.type (.predicate asserts) (← spanFrom predicateStart) [name, known]
    return .ofPart .annotatedType (← spanFrom start) [predicate]

/-- Parameters of a signature, up to and with the closing parenthesis. -/
def signatureParameters (g : Grammar) : Parse (List Tree) := do
  let params ← parameters g
  let patterns ← params.mapM fun p => do
    let pat := p.part 0
    match pat.kind with
    | .pat (.name _ _) | .pat (.array _) | .pat (.object _) | .pat .rest => return pat
    | _ => unexpected ("an identifier, [ for an array pattern, \x7b for an object patter or " ++
        "... for a rest pattern")
  expect .parenClose
  return patterns

/-- Type parameters, parameters and the type after them: of a function type or a signature. -/
def signature (g : Grammar) (mark : Mark) (typeNeeded : Bool) : Parse (List Tree) := do
  let typeParams ← typeParams? g false true
  expect .parenOpen
  let params ← signatureParameters g
  let type ← if typeNeeded || (← at? mark) then returnType g mark else pure .absent
  return [.list params, typeParams, type]

/-- The parts of a signature among the members of an object type: there the type stands before the
type parameters. -/
def memberSignature (g : Grammar) : Parse (List Tree) := do
  match ← signature g .colon false with
  | [params, typeParams, type] => return [params, type, typeParams]
  | parts => return parts

/-- Ends a member of an object type. -/
def memberEnd : Parse Unit := do
  if !(← accept .comma) then expectSemicolon

/-- Whether what follows a bracket is the parameter of an index signature. -/
def atIndexSignature : Parse Bool := do
  if !(← at? .bracketOpen) then return false
  lookAhead do
    advance
    if !(← atFreeWord) then return false
    advance
    return (← at? .colon) || (← at? .comma)

/-- An index signature, where one stands. -/
def indexSignature? (g : Grammar) (start : Nat) (kind : Kind) : Parse (Option Tree) := do
  if !(← typed) || !(← atIndexSignature) then return none
  expect .bracketOpen
  let nameStart ← here
  let (n, nameSpan) ← anyWord
  let typeStart ← here
  if ← accept .comma then note nameSpan .indexParameters else expect .colon
  let t ← inType g.type
  let type := Tree.ofPart .annotatedType (← spanFrom typeStart) [t]
  let param := Tree.pat (.name n false) (← spanFrom nameStart) [type]
  expect .bracketClose
  let valueType ← annotatedType? g
  memberEnd
  return some (.node kind (← spanFrom start) [.list [param], valueType])

/-- The name of a member of an object type, and whether it is in brackets. -/
def memberKey (g : Grammar) : Parse (Bool × Tree) := do
  if ← accept .bracketOpen then
    let key ← g.assignment
    expect .bracketClose
    return (true, key)
  within ({ · with inPropertyName := true }) do
    match ← someToken with
    | .number _ _ | .string _ _ => return (false, ← g.memberOrNew true)
    | .mark .hash =>
      let (n, span) ← privateWord
      note span .privateInInterface
      return (false, .expr (.privateName n) span [])
    | _ =>
      let (n, span) ← anyWord
      return (false, .expr (.name n) span [])

/-- An accessor of an object type, where one stands. -/
def accessorSignature? (g : Grammar) (readonly : Bool) : Parse (Option Tree) :=
  attempt do
    let start ← here
    if readonly then fail .readonlyMethod
    let isGet ← acceptName "get"
    if !isGet then expectName "set"
    let (computed, key) ← memberKey g
    expect .parenOpen
    if isGet then
      expect .parenClose
      let type ← annotatedType? g
      memberEnd
      return some (.typeElement (.getter computed) (← spanFrom start) [key, type])
    let params ← signatureParameters g
    match params with
    | [] => fail .setterParameters
    | param :: _ =>
      memberEnd
      return some (.typeElement (.setter computed) (← spanFrom start) [key, param])

/-- A member of an object type or an interface. -/
def typeMember (g : Grammar) : Parse Tree := do
  let start ← here
  if (← at? .parenOpen) || (← at? (.op .lt)) then
    let parts ← memberSignature g
    memberEnd
    return .typeElement .call (← spanFrom start) parts
  if ← atKeyword .new then
    let constructs ← lookAhead do
      advance
      return (← at? .parenOpen) || (← at? (.op .lt))
    if constructs then
      advance
      let parts ← memberSignature g
      memberEnd
      return .typeElement .construct (← spanFrom start) parts
  let readonly := (← modifier? ["readonly"] false).isSome
  if let some t ← indexSignature? g start (.typeElement (.index readonly)) then return t
  if let some t ← accessorSignature? g readonly then return t
  let (computed, key) ← memberKey g
  let optional ← accept .question
  if (← at? .parenOpen) || (← at? (.op .lt)) then
    if readonly then fail .readonlyMethod
    let parts ← memberSignature g
    memberEnd
    return .typeElement (.method computed optional) (← spanFrom start) (key :: parts)
  let type ← annotatedType? g
  memberEnd
  return .typeElement (.property readonly computed optional) (← spanFrom start) [key, type]

/-- The members of an object type in braces. -/
def typeMembers (g : Grammar) : Parse (List Tree) := do
  expect .braceOpen
  let members ← iterate ([] : List Tree) fun acc => do
    let _ ← someToken
    if ← at? .braceClose then return .inr acc.reverse
    return .inl ((← g.typeElement) :: acc)
  expect .braceClose
  return members

/-! ## Types -/

/-- The stretches of a template and what stands between them. -/
def templateParts (inner : Parse Tree) (tagged : Bool) : Parse (List Tree × List Tree) := do
  let quasi : Parse (Tree × Bool) := do
    let start ← here
    match ← someToken with
    | .template cooked raw =>
      advance
      let cooked ← match cooked with
        | .ok c => pure (some c)
        | .error e => if tagged then pure none else throw e
      let tail ← at? .backquote
      return (.ofPart (.quasi tail cooked raw) (← spanFrom start) [], tail)
    | _ => unexpected "template token"
  let (first, tail) ← quasi
  iterate (([], [first], tail) : List Tree × List Tree × Bool) fun (inners, quasis, tail) => do
    if tail then return .inr (inners.reverse, quasis.reverse)
    expect .dollarBrace
    let e ← inner
    expect .braceClose
    let (q, tail) ← quasi
    return .inl (e :: inners, q :: quasis, tail)

/-- The keyword types. -/
def keywordTypes : List String :=
  ["any", "boolean", "bigint", "never", "number", "object", "string", "symbol", "unknown",
   "undefined", "intrinsic"]

/-- The keyword type that the current token names. -/
def keywordType? : Parse (Option String) := do
  return match ← token? with
    | some (.keyword .void) => some "void"
    | some (.keyword .null) => some "null"
    | some (.name n false) => keywordTypes.find? (text · == n)
    | _ => none

/-- A literal as a type, negative if a minus stands before it. -/
def literalType (start : Nat) (negative : Bool) : Parse Tree := do
  let kind? : Option Token → Option TypeKind
    | some (.string v raw) => if negative then none else some (.string v (some raw))
    | some (.number v raw) => some (.number negative v (some raw))
    | some (.bigInt v raw) => some (.bigInt negative v (some raw))
    | some (.keyword .true) => if negative then none else some (.bool true)
    | some (.keyword .false) => if negative then none else some (.bool false)
    | _ => none
  match kind? (← token?) with
  | some k =>
    advance
    return .type k (← spanFrom start) []
  | none => unexpected "numeric literal or bigint literal"

/-- The type of a module, by its specifier. -/
def importType (g : Grammar) : Parse Tree := do
  let start ← here
  expectKeyword .import
  expect .parenOpen
  let span ← currentSpan
  let arg ← match ← stringPart? with
    | some s => pure s
    | none => do
      advance
      note span .expectedModuleString
      pure (Tree.ofPart (.string [] (some (text "\"\""))) span [])
  expect .parenClose
  let qualifier ← if ← accept .dot then entityName false else pure .absent
  let args ← if ← at? (.op .lt) then within ({ · with longAngles := false }) (typeArgs g)
    else pure .absent
  return .type .import (← spanFrom start) [arg, qualifier, args]

/-- The sign and the word of a mapped type's modifier. -/
def mappedSign? (word : Parse Unit) (plain : Parse Bool) : Parse (Option MappedSign) := do
  if ← accept (.op .add) then
    word
    return some .plus
  if ← accept (.op .sub) then
    word
    return some .minus
  return if ← plain then some .plain else none

def mappedType (g : Grammar) : Parse Tree := do
  let start ← here
  expect .braceOpen
  let readonly ← mappedSign? (expectName "readonly") (acceptName "readonly")
  expect .bracketOpen
  let paramStart ← here
  let name ← anyName
  let constraint ← inType do
    if !(← acceptKeyword .in) then fail (.unexpected (← currentOptional) Keyword.in.word)
    g.type
  let param := Tree.ofPart (.typeParam false false false) (← spanFrom paramStart)
    [name, constraint, .absent]
  let nameType ← if ← acceptName "as" then g.type else pure .absent
  expect .bracketClose
  let optional ← mappedSign? (expect .question) (accept .question)
  let type ← typeAfter? g (accept .colon)
  expectSemicolon
  expect .braceClose
  return .type (.mapped readonly optional) (← spanFrom start) [param, nameType, type]

/-- Whether the brace here opens a mapped type. -/
def atMappedType : Parse Bool :=
  lookAhead do
    advance
    if ← accept (.op .add) <||> accept (.op .sub) then return ← atName "readonly"
    let _ ← acceptName "readonly"
    if !(← accept .bracketOpen) then return false
    if !(← atFreeWord) then return false
    advance
    atKeyword .in

/-- The label of an element of a tuple type, where there is one. -/
def tupleLabel? : Parse (Option Tree) :=
  attempt do
    let start ← here
    let rest ← accept .ellipsis
    let (n, span) ← anyWord
    let optional ← accept .question
    let hi ← lastEnd
    let name := Tree.pat (.name n optional) ⟨span.lo, if optional then hi else span.hi⟩ [.absent]
    expect .colon
    let whole ← spanFrom start
    return some (if rest then .pat .rest whole [name, .absent] else name)

def tupleElement (g : Grammar) : Parse Tree := do
  let start ← here
  let label := Tree.ofOption (← tupleLabel?)
  if ← accept .ellipsis then
    let t ← g.type
    let span ← spanFrom start
    return .ofPart .tupleElement span [label, .type .rest span [t]]
  let t ← g.type
  if ← accept .question then
    let span ← spanFrom start
    return .ofPart .tupleElement span [label, .type .optional span [t]]
  return .ofPart .tupleElement (← spanFrom start) [label, t]

def tupleType (g : Grammar) : Parse Tree := do
  let start ← here
  expect .bracketOpen
  let elements ← separated (at? .bracketClose) (tupleElement g)
  expect .bracketClose
  let span ← spanFrom start
  -- No element that is required may follow an optional one.
  let types := (elements.map fun e => (e.part 1).kind).filter (· != .type .rest)
  if (types.dropWhile (· != .type .optional)).any (· != .type .optional) then
    failAt span .tupleRequiredAfterOptional
  return .type .tuple span elements

/-- What a type predicate on `this` says. -/
def thisPredicate (g : Grammar) (start : Nat) (asserts : Bool) (this : Tree) : Parse Tree := do
  let known ← if ← acceptName "is" then do
      let p ← here
      let t ← inType g.type
      pure (Tree.ofPart .annotatedType (← spanFrom p) [t])
    else pure .absent
  return .type (.predicate asserts) (← spanFrom start) [this, known]

def thisType : Parse Tree := do
  expectKeyword .this
  return .type .this (← previous) []

def typeReference (g : Grammar) : Parse Tree := do
  let start ← here
  let modified ← anyModifier
  let name ← entityName true
  let args ← typeArgs? g
  let span ← spanFrom start
  if modified then note span .parameterProperty
  return .type .reference span [name, args]

/-- A type that starts with a name or with a keyword that can be one. -/
def namedType (g : Grammar) : Parse Tree := do
  let start ← here
  if ← atName "asserts" <&&> nextIs (isKeyword .this) then
    advance
    return ← thisPredicate g start true (← thisType)
  match ← keywordType? with
  | some w =>
    if !(← nextAt .dot) then
      advance
      return .type (.keyword w) (← spanFrom start) []
    typeReference g
  | none => typeReference g

/-- A type without operators. -/
def simpleType (g : Grammar) : Parse Tree := do
  let start ← here
  match ← someToken with
  | .name _ _ | .keyword .void | .keyword .yield | .keyword .null | .keyword .await
  | .keyword .break => namedType g
  | .bigInt _ _ | .string _ _ | .number _ _ | .keyword .true | .keyword .false =>
    literalType start false
  | .mark .backquote =>
    advance
    let (types, quasis) ← templateParts g.type false
    expect .backquote
    return .type .template (← spanFrom start) [.list types, .list quasis]
  | .mark (.op .sub) =>
    advance
    literalType start true
  | .keyword .import => importType g
  | .keyword .this =>
    let this ← thisType
    if !(← lineBreak) && (← atName "is") then thisPredicate g start false this else return this
  | .keyword .typeOf =>
    advance
    let name ← if ← atKeyword .import then importType g else entityName true
    let args ← typeArgs? g
    return .type .query (← spanFrom start) [name, args]
  | .mark .braceOpen =>
    if ← atMappedType then mappedType g
    else
      let members ← typeMembers g
      return .type .object (← spanFrom start) members
  | .mark .bracketOpen => tupleType g
  | .mark .parenOpen =>
    advance
    let t ← g.type
    expect .parenClose
    return .type .paren (← spanFrom start) [t]
  | _ => unexpected ("an identifier, void, yield, null, await, break, a string literal, " ++
      "a numeric literal, true, false, `, -, import, this, typeof, \x7b, [, (")

/-- A type with brackets after it. -/
def suffixedType (g : Grammar) : Parse Tree := do
  let first ← simpleType g
  iterate first fun t => do
    if ← lineBreak <||> notM (accept .bracketOpen) then return .inr t
    if ← accept .bracketClose then return .inl (.type .array (← spanFrom first.span.lo) [t])
    let index ← g.type
    expect .bracketClose
    return .inl (.type .indexed (← spanFrom first.span.lo) [t, index])

/-- A type with an operator before it. -/
def operatorType (g : Grammar) : Parse Tree := do
  let start ← here
  for w in ["keyof", "unique", "readonly"] do
    if ← acceptName w then
      let t ← g.unionOperand
      return .type (.operator w) (← spanFrom start) [t]
  if ← acceptName "infer" then
    let name ← anyName
    let constraint ← attempt do
      expectKeyword .extends
      let t ← g.nonConditionalType
      return if (← context).noConditionalTypes || !(← at? .question) then some t else none
    let param := Tree.ofPart (.typeParam false false false) name.span
      [name, .ofOption constraint, .absent]
    return .type .infer (← spanFrom start) [param]
  suffixedType g

/-- Types joined by an operator, which may also stand before the first. -/
def joinedTypes (op : BinaryOp) (kind : TypeKind) (operand : Parse Tree) : Parse Tree := do
  let start ← here
  let _ ← accept (.op op)
  let first ← operand
  if !(← at? (.op op)) then return first
  let rest ← collect do
    if ← accept (.op op) then return some (← operand)
    return none
  return .type kind (← spanFrom start) (first :: rest)

/-- Whether what is here is surely a function type: it starts with type parameters, or with a
parenthesis and something that only parameters have. -/
def startsFunctionType (g : Grammar) : Parse Bool := do
  if ← at? (.op .lt) then return true
  if !(← at? .parenOpen) then return false
  lookAhead do
    advance
    if (← at? .parenClose) || (← at? .ellipsis) then return true
    let _ ← anyModifier
    let named ← if ← atWord then do
        advance
        pure true
      else if (← at? .braceOpen) || (← at? .bracketOpen) then do
        let _ ← g.pattern
        pure true
      else pure false
    if !named then return false
    for m in [Mark.colon, .comma, .question, .assign .plain] do
      if ← at? m then return true
    return (← accept .parenClose) && (← at? .arrow)

/-- A type that is no conditional type. -/
def nonConditionalType (g : Grammar) : Parse Tree := do
  let start ← here
  if ← startsFunctionType g then
    let parts ← signature g .arrow true
    return .type .function (← spanFrom start) parts
  if ← (atName "abstract" <&&> nextIs (isKeyword .new)) <||> atKeyword .new then
    let abstract ← acceptName "abstract"
    expectKeyword .new
    let parts ← signature g .arrow true
    return .type (.constructor abstract) (← spanFrom start) parts
  joinedTypes .bitOr .union (joinedTypes .bitAnd .intersection (operatorType g))

/-- A type. Only the one after `extends` may not be conditional without parentheses. -/
def typeExpr (g : Grammar) : Parse Tree :=
  within ({ · with noConditionalTypes := false }) do
    let start ← here
    let check ← nonConditionalType g
    if ← lineBreak then return check
    if !(← acceptKeyword .extends) then return check
    let extended ← within ({ · with noConditionalTypes := true }) (nonConditionalType g)
    expect .question
    let yes ← g.type
    expect .colon
    let no ← g.type
    return .type .conditional (← spanFrom start) [check, extended, yes, no]

end InlineTemplates.Script.Parse
