import InlineTemplates.Script.Grammar.Class
import InlineTemplates.Script.Grammar.Element

/-! # Expressions -/

namespace InlineTemplates.Script

/-- The expression inside all parentheses around it. -/
def withoutParens : Tree → Tree
  | .node (.expr .paren) _ [e] => withoutParens e
  | e => e

/-- Whether `delete` may be applied to an expression where there are types. -/
def isDeletable (e : Tree) : Bool :=
  match withoutParens e with
  | .node (.expr .member) _ _ | .node (.expr .index) _ _ => true
  | .node (.expr (.chain _)) _ [.node (.expr .member) _ _] => true
  | .node (.expr (.chain _)) _ [.node (.expr .index) _ _] => true
  | _ => false

def isArrow (e : Tree) : Bool := match e.kind with
  | .expr (.arrow _ _) => true
  | _ => false

/-- Whether a binary expression joins operands with `&&` or `||`. -/
def isLogical (e : Tree) : Bool := match e.kind with
  | .expr (.binary op) => op == .and || op == .or
  | _ => false

namespace Parse

/-! ## Primary expressions -/

/-- What follows the name `async` when it starts an arrow function with one name as parameter. -/
def asyncNameRest (g : Grammar) (start : Nat) (async : Tree) : Parse Tree := do
  let c ← context
  let loopHead ← if c.forInit then atName "of" <&&> notM (nextAt .arrow) else pure false
  if loopHead then
    if !c.forAwait then note (← previous) .forOfAsync
    return async
  let param ← declaredName false
  let isAs := match param.kind with
    | .pat (.name n _) => n == text "as"
    | _ => false
  if c.dialect.types && isAs && !(← at? .arrow) then
    let t ← inType g.type
    return .expr .asType (← spanFrom start) [async, t]
  expect .arrow
  arrowTail g start true [param] .absent .absent

/-- A name, or an arrow function whose parameter is a name. -/
def nameOrArrow (g : Grammar) (start : Nat) (canBeArrow : Bool) : Parse Tree := do
  let plain := match ← token? with
    | some (.name _ plain) => plain
    | _ => false
  let (n, span) ← reference
  if plain && (strictReserved.contains n || n == text "await") then
    noteInModule span (.nameInStrict n)
  let e := Tree.expr (.name n) span []
  if !canBeArrow || (← lineBreak) then return e
  if n == text "async" && (← atFreeWord) then return ← asyncNameRest g start e
  if ← accept .arrow then
    if isEvalOrArguments n then noteInModule span .evalOrArguments
    return ← arrowTail g start false [namePattern n span] .absent .absent
  return e

/-- A function or an arrow function that starts with the word `async`, where there is one. -/
def asyncFunction? (g : Grammar) (start : Nat) (canBeArrow : Bool) : Parse (Option Tree) := do
  if !(← atName "async") then return none
  if ← nextIs (isKeyword .function) <&&> notM lineBreakAfter then
    advance
    return some (← functionExpr g (some start))
  if canBeArrow then
    if ← typed <&&> nextAt (.op .lt) then
      let arrow ← attempt do
        advance
        genericAsyncArrow? g start
      if arrow.isSome then return arrow
    if ← nextAt .parenOpen <&&> notM lineBreakAfter then
      advance
      return some (← parenOrArrow g true (some (← previous)))
  return none

/-- An expression without operators, calls and member accesses. -/
def primary (g : Grammar) : Parse Tree := do
  let start ← here
  let canBeArrow := (← get).arrowStart == some start
  if let some e ← asyncFunction? g start canBeArrow then return e
  if let some e ← literal? then return e
  match ← token? with
  | some (.keyword .this) =>
    advance
    return .expr .this (← previous) []
  | some (.mark .bracketOpen) => return ← arrayLiteral g
  | some (.mark .braceOpen) => return ← objectLiteral g
  | some (.keyword .function) => return ← functionExpr g none
  | some (.mark .backquote) => return ← withoutColon (templateLiteral g false)
  | some (.mark .parenOpen) => return ← parenOrArrow g canBeArrow none
  | _ => pure ()
  if let some e ← regexLiteral? then return e
  if ← atKeyword .classWord then return ← classExpr g
  if ← accept .hash then
    let (n, _) ← anyWord
    return .expr (.privateName n) (← spanFrom start) []
  if (← atFreeWord) || (← atKeyword .let) || ((← typed) && (← atKeyword .await)) then
    return ← nameOrArrow g start canBeArrow
  fail .expectedExpression

/-! ## Members, calls and `new` -/

/-- What follows the word `new`, which stands at `start`. -/
def newRest (g : Grammar) (start : Nat) (isNew : Bool) : Parse Tree := do
  if ← accept .dot then
    if !(← acceptName "target") then unexpected "target"
    let span ← spanFrom start
    let c ← context
    if !c.inPlainFunction && !c.inParameters && !c.inClass then note span .newTarget
    return ← subscripts g (.expr .newTarget span []) true false
  let callee ← g.memberOrNew isNew
  if isArrow callee then return callee
  if isNew && callee.kind == .expr (.chain true) then failAt callee.span .newInChain
  let typeArgs ← if (← typed) && (← at? (.op .lt)) then
      attempt do
        let args ← within ({ · with longAngles := false }) (typeArgs g)
        if !(← at? .parenOpen) then failExpected Mark.parenOpen.symbol
        return some args
    else pure none
  let typeArgs := Tree.ofOption typeArgs
  if !isNew || (← at? .parenOpen) then
    let args ← arguments g false
    let e := Tree.expr (.new true) (← spanFrom start) [callee, .list args, typeArgs]
    return ← subscripts g e true false
  return .expr (.new false) (← spanFrom start) [callee, .absent, typeArgs]

/-- A member expression, or one with `new` before it. -/
def memberOrNewExpr (g : Grammar) (isNew : Bool) : Parse Tree :=
  within ({ · with longAngles := true }) do
    let start ← here
    if ← acceptKeyword .new then return ← newRest g start isNew
    if ← acceptKeyword .super then
      return ← subscripts g (.ofPart .super (← previous) []) true false
    if ← acceptKeyword .import then return ← importExpr g start true
    let e ← primary g
    if isArrow e then return e
    let e ← instantiated start e (← instantiation? g)
    subscripts g e true false

/-- What can stand left of an assignment, with the calls in it. -/
def leftHandSideExpr (g : Grammar) : Parse Tree := do
  let start ← here
  if (← context).dialect.tags then
    match ← someToken with
    | .jsxText value raw =>
      advance
      return .ofPart (.tagText value raw) (← previous) []
    | .mark .tagStart => return ← g.element
    | .mark (.op .lt) => if !(← nextAt .bang) then return ← g.element
    | _ => pure ()
  if ← acceptKeyword .super then
    return ← subscripts g (.ofPart .super (← previous) []) false false
  if ← acceptKeyword .import then return ← importExpr g start false
  let callee ← g.memberOrNew true
  if isArrow callee then return callee
  let typeArgs ← if (← typed) && ((← at? (.op .lt)) || (← at? (.op .shiftLeft))) then
      attempt do
        let args ← typeArgs g
        return if ← at? .parenOpen then some args else none
    else pure none
  match callee with
  | .node (.expr (.new false)) span [c, args, _] =>
    match typeArgs with
    | some a =>
      expect .parenOpen
      return .node (.expr (.new false)) span [c, args, a]
    | none => return callee
  | _ =>
    if ← at? .parenOpen then
      let e ← callOf g start callee (.ofOption typeArgs) false
      return ← subscripts g e false false
    return callee

/-! ## Unary operators -/

/-- The unary operator that the current token is. -/
def unaryOp? : Option Token → Option UnaryOp
  | some (.mark .bang) => some .not
  | some (.mark .tilde) => some .bitNot
  | some (.mark (.op .add)) => some .plus
  | some (.mark (.op .sub)) => some .minus
  | some (.keyword .delete) => some .delete
  | some (.keyword .void) => some .void
  | some (.keyword .typeOf) => some .typeOf
  | _ => none

/-- An expression after a unary operator that stands at `start`. -/
def unaryRest (g : Grammar) (start : Nat) (op : UnaryOp) : Parse Tree := do
  let p ← here
  let arg ← try g.unary catch e => do
    keep e
    pure (.expr .invalid ⟨p - 1, p - 1⟩ [])
  if op == .delete then
    if let .expr (.name _) := arg.kind then noteInModule arg.span .deleteName
    if (← typed) && !isDeletable arg then note (withoutParens arg).span .deleteOperand
  return .expr (.unary op) ⟨start, arg.span.hi⟩ [arg]

/-- What follows the word `await` at `start`. Outside async code the word is a name where no operand
follows. -/
def awaitRest (g : Grammar) (start : Nat) : Parse Tree := do
  let span ← spanFrom start
  if ← at? (.op .mul) then fail .awaitStar
  let c ← context
  let ended := (← at? .parenClose) || (← at? .bracketClose) || (← at? .comma) || (← atSemicolon)
  if ended && !c.inAsync then
    if c.moduleCode || c.inStaticBlock then note span .awaitAsName
    return .expr (.name (text "await")) span []
  if c.inFunction && !c.inAsync then note (← currentSpan) .awaitOutsideAsync
  if c.inParameters && !c.inFunction then note span .awaitInParameter
  let arg ← g.unary
  return .expr .await (← spanFrom start) [arg]

/-- A type in angle marks before an expression, after the first mark at `start`. -/
def assertionRest (g : Grammar) (start : Nat) : Parse Tree := do
  if ← acceptKeyword .const then
    expect (.op .gt)
    let e ← g.unary
    return .expr .constAssertion (← spanFrom start) [e]
  let t ← inType g.type
  expect (.op .gt)
  let e ← g.unary
  return .expr .typeAssertion (← spanFrom start) [e, t]

/-- An expression with unary operators before it, or an increment or decrement. -/
def unaryExpr (g : Grammar) : Parse Tree := do
  let start ← here
  let c ← context
  if c.dialect.types && !c.dialect.tags then
    if ← accept (.op .lt) then return ← assertionRest g start
  if (← at? .plusPlus) || (← at? .minusMinus) then
    let increment ← at? .plusPlus
    advance
    let arg ← g.unary
    checkTarget arg
    return .expr (.update increment true) ⟨start, arg.span.hi⟩ [arg]
  if let some op := unaryOp? (← token?) then
    advance
    return ← unaryRest g start op
  if ← acceptKeyword .await then return ← awaitRest g start
  let e ← leftHandSideExpr g
  if isArrow e || (← lineBreak) then return e
  if (← at? .plusPlus) || (← at? .minusMinus) then
    checkTarget e
    let increment ← at? .plusPlus
    advance
    return .expr (.update increment false) (← spanFrom e.span.lo) [e]
  return e

/-! ## Binary operators -/

/-- The binary operator that the current token is. -/
def binaryOp? (c : Context) : Option Token → Option BinaryOp
  | some (.keyword .in) => if c.allowIn then some .inOp else none
  | some (.keyword .instanceOf) => some .instanceOf
  | some (.mark (.op op)) => some op
  | _ => none

/-- Notes that `??` may not be mixed with `&&` and `||`. -/
def checkMix (e : Tree) : Parse Unit := do
  if isLogical e then note e.span .nullishMix

/-- A type after the word `as` or `satisfies`. -/
def typeOperand (g : Grammar) : Parse Tree := do
  let t ← inType do
    advance
    g.type
  if !(← context).inType && ((← at? (.op .lt)) || (← at? (.op .gt))) then joinAngles
  return t

/-- A type operator after `left`: `as` binds as tightly as a comparison, `satisfies` tighter than
every operator. -/
def typeOperator? (g : Grammar) (left : Tree) (least : Nat) : Parse (Option Tree) := do
  if !(← typed) || (← lineBreak) then return none
  if least < 7 && (← atName "as") then
    if ← nextIs (isKeyword .const) then
      advance
      let _ ← token?
      advance
      return some (.expr .constAssertion (← spanFrom left.span.lo) [left])
    let t ← typeOperand g
    return some (.expr .asType (← spanFrom left.span.lo) [left, t])
  if ← atName "satisfies" then
    let t ← typeOperand g
    return some (.expr .satisfies (← spanFrom left.span.lo) [left, t])
  return none

/-- One operator after `left` that binds tighter than `least`, with its right operand. -/
def operatorStep (g : Grammar) (left : Tree) (least : Nat) : Parse (Option Tree) := do
  if let some e ← typeOperator? g left least then return some e
  match binaryOp? (← context) (← token?) with
  | none => return none
  | some op =>
    if op.precedence ≤ least then return none
    if op == .exp then
      match left.kind with
      | .expr (.unary _) | .expr .await => fail .unaryBeforePower
      | _ => pure ()
    advance
    let first ← g.unary
    let right ← g.operators first (if op == .exp then op.precedence - 1 else op.precedence)
    if op == .coalesce then
      checkMix left
      checkMix right
    return some (.expr (.binary op) ⟨left.span.lo, right.span.hi⟩ [left, right])

/-- All operators after `left` that bind tighter than `least`. -/
def operatorsRest (g : Grammar) (left : Tree) (least : Nat) : Parse Tree :=
  iterate left fun left => do
    match ← operatorStep g left least with
    | none =>
      checkOperand left
      return .inr left
    | some e =>
      checkOperand e
      return .inl e
where
  /-- Notes `??` left of `&&` or `||`. -/
  checkOperand (e : Tree) : Parse Unit := do
    match e.kind, (e.part 0).kind with
    | .expr (.binary op), .expr (.binary .coalesce) =>
      if op == .and || op == .or then note e.span .nullishMix
    | _, _ => return ()

/-! ## Assignments and sequences -/

def yieldExpr (g : Grammar) : Parse Tree := do
  let start ← here
  advance
  let c ← context
  if c.inParameters && !c.inFunction then failAt (← previous) .yieldInParameter
  let t ← token?
  let starred := isMark (.op .mul) t
  let starts := starred || startsExpr t || isMark .tagStart t || isKeyword .throw t
  if (← atSemicolon) || !starts then
    return .expr (.yield false) (← spanFrom start) [.absent]
  let delegate ← accept (.op .mul)
  let arg ← g.assignment
  return .expr (.yield delegate) (← spanFrom start) [arg]

/-- An expression without a comma at its top that does not start with type parameters. -/
def plainAssignment (g : Grammar) : Parse Tree := do
  let start ← here
  if (← context).inGenerator && (← atKeyword .yield) then return ← yieldExpr g
  let arrowStart := match ← someToken with
    | .name _ _ | .mark .parenOpen | .keyword .yield => some start
    | _ => none
  modify fun s => { s with arrowStart := arrowStart }
  let test ← binaryExpr g
  if isArrow test then return test
  if ← accept .question then return ← conditionalRest g start test
  match test.kind with
  | .expr (.binary _) | .expr (.unary _) | .expr (.update _ _) => return test
  | _ => assignmentRest g start test

/-- Goes back from the rules for tags to those that held before. -/
def leaveTag : Parse Unit :=
  modify fun s => { s with lexer := { s.lexer with enclosures := s.lexer.enclosures.drop 2 } }

/-- An arrow function that starts with type parameters; `rest` reads what follows them. -/
def genericArrow? (g : Grammar) (rest : Parse Tree) : Parse (Option Tree) := do
  let angle := (← at? (.op .lt)) || (← at? .tagStart)
  let isName : Option Token → Bool
    | some (.jsxName _) => true
    | t => isWord t
  if !angle then return none
  if !isName (← next?) then return none
  withoutColon <| attempt do
    if (← at? .tagStart) && (← get).lexer.enclosure == some .openingTag then leaveTag
    let typeParams ← typeParams g false true
    match ← rest with
    | .node (.expr (.arrow async isBlock)) span [params, body, _, type] =>
      return some (.node (.expr (.arrow async isBlock)) ⟨typeParams.span.lo, span.hi⟩
        [params, body, typeParams, type])
    | _ => unexpected "("

/-- An expression without a comma at its top, with type parameters up to `n` times before it; the
first of them hold. -/
def genericAssignment (g : Grammar) : Nat → Parse Tree
  | 0 => plainAssignment g
  | n + 1 => do
    if ← typed then
      if let some e ← genericArrow? g (genericAssignment g n) then return e
    plainAssignment g

/-- An expression without a comma at its top. -/
def assignmentExpr (g : Grammar) : Parse Tree := do
  let n ← bound
  let c ← context
  if c.dialect.types && c.dialect.tags && (← at? .tagStart) then
    if let some e ← attempt (do return some (← genericAssignment g n)) then return e
    leaveTag
  genericAssignment g n

/-- An expression, perhaps several with commas between them. -/
def sequenceExpr (g : Grammar) : Parse Tree := do
  let first ← g.assignment
  if !(← at? .comma) then return first
  let more ← collect do
    if ← accept .comma then return some (← g.assignment)
    return none
  return .expr .sequence (← spanFrom first.span.lo) (first :: more)

end Parse
end InlineTemplates.Script
