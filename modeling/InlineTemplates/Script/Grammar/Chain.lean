import InlineTemplates.Script.Grammar.Arrow

/-! # Member access and calls -/

namespace InlineTemplates.Script

/-- Whether an expression is an optional chain, perhaps asserted not to be null. -/
def isChain : Tree → Bool
  | .node (.expr (.chain _)) _ _ => true
  | .node (.expr .nonNull) _ [e] => isChain e
  | _ => false

/-- What stands before a member access or a call: an expression or a word that is none. -/
def isCallee (t : Tree) (k : PartKind) : Bool := t.kind == .part k

def isImportCallee (t : Tree) : Bool := match t.kind with
  | .part (.importCallee _) => true
  | _ => false

namespace Parse

/-- Whether an expression may start with the current token. -/
def startsExpr : Option Token → Bool
  | some (.mark m) => [Mark.op .add, .op .sub, .tilde, .bang, .plusPlus, .minusMinus, .hash,
       .backquote, .parenOpen, .bracketOpen, .braceOpen, .op .div,
      .assign (.with .div)].contains m
  | some (.keyword k) => [Keyword.this, .super, .null, .true, .false, .function, .classWord, .new,
      .await, .yield, .delete, .typeOf, .void, .import].contains k
  | some (.number _ _) | some (.bigInt _ _) | some (.string _ _) | some (.regex _ _) => true
  | some (.name _ _) => true
  | _ => false

/-- Type arguments after an expression that is not called with them. -/
def instantiation? (g : Grammar) : Parse (Option Tree) := do
  -- Where there are no types the next token is not looked at yet.
  if ← notM (typed <&&> at? (.op .lt)) then return none
  attempt do
    let args ← typeArgs g
    let t ← token?
    match t with
    | some (.mark m) =>
      if [Mark.op .lt, .op .gt, .op .add, .op .sub, .parenOpen, .backquote].contains m then
        return none
      match m with
      | .op _ => return some args
      | _ => pure ()
    | _ => pure ()
    return if (← lineBreak) || !startsExpr t then some args else none

/-- The expression with the type arguments after it. -/
def instantiated (start : Nat) (e : Tree) (args : Option Tree) : Parse Tree := do
  match args with
  | some a => return .expr .instantiation (← spanFrom start) [e, a]
  | none => return e

/-- The member of a callee. An access without `?.` that is part of an optional chain is one too. -/
def memberOf (span chainSpan : Span) (obj prop : Tree) (index optional : Bool) : Tree :=
  let e := Tree.expr (if index then .index else .member) span [obj, prop]
  if isChain obj || optional then .expr (.chain optional) chainSpan [e] else e

/-- A member of `super`, which methods alone have. -/
def superMember (span : Span) (obj prop : Tree) (index optional noCall : Bool) : Parse Tree := do
  let here ← seenSpan
  if !(← context).allowSuper && !(← typed) then failAt here .invalidSuper
  if optional then failAt here (if noCall then .invalidSuperCall else .invalidSuper)
  match prop.kind with
  | .part (.privateName _) => failAt here .invalidSuperCall
  | _ => return .expr (if index then .superIndex else .superMember) span [obj, prop]

/-- The expression in brackets after a callee. -/
def indexAccess (g : Grammar) (start bracket : Nat) (obj : Tree) (optional noCall : Bool) :
    Parse Tree := do
  let e ← withIn g.expr
  expect .bracketClose
  let span ← spanFrom obj.span.lo
  let prop := Tree.ofPart .computed (← spanFrom bracket) [e]
  let args ← instantiation? g
  if isCallee obj .super then superMember span obj prop true optional noCall
  else instantiated start (memberOf span span obj prop true optional) args

/-- The name after the dot of a callee. -/
def nameAccess (g : Grammar) (start : Nat) (obj : Tree) (optional noCall : Bool) : Parse Tree := do
  let prop ← memberName
  let span ← spanFrom obj.span.lo
  let args ← instantiation? g
  if isCallee obj .super then superMember span obj prop false optional noCall
  else instantiated start (memberOf span (← spanFrom start) obj prop false optional) args

/-- A callee that is a name with the letters of `import` stands for that word. -/
def asImportCallee (obj : Tree) : Tree := match obj with
  | .node (.expr (.name n)) span _ =>
    if n == text "import" then .ofPart (.importCallee .evaluation) span [] else obj
  | _ => obj

/-- A call of a callee with type arguments. -/
def callOf (g : Grammar) (start : Nat) (obj typeArgs : Tree) (optional : Bool) : Parse Tree := do
  let callee := asImportCallee obj
  let args ← arguments g (isImportCallee callee)
  let span ← spanFrom start
  if isChain obj || optional then
    if obj.isExpr then
      return .expr (.chain optional) span [.expr .chainCall span [obj, .list args, typeArgs]]
    failAt (← seenSpan) .superOptional
  return .expr .call span [callee, .list args, typeArgs]

/-- Type arguments after an expression with the call or the template that they belong to, or an
async arrow function with type parameters; and whether more may follow. Type arguments before an
equals sign or a type operator belong to nothing else. -/
def typedCall? (g : Grammar) (start : Nat) (obj : Tree) (noCall : Bool) :
    Parse (Option (Tree × Bool)) := do
  if !obj.isExpr || !(← typed) || !(← at? (.op .lt)) then return none
  attempt do
    let maybeAsync := match obj.kind with
      | .expr (.name n) => n == text "async"
      | _ => false
    if !noCall && maybeAsync && (← get).arrowStart == some obj.span.lo then
      if let some arrow ← genericAsyncArrow? g start then return some (arrow, true)
    let args ← typeArgs g
    if !noCall && (← at? .parenOpen) then return some (← callOf g start obj args false, true)
    if ← at? .backquote then return some (← taggedTemplate g obj args, true)
    if ← at? (.assign .plain) <||> atName "as" <||> atName "satisfies" then
      return some (← instantiated start obj (some args), false)
    unexpected (if noCall then "`" else "( or `")

/-- Takes the mark of an optional access: a question mark, with its dot left. -/
def acceptQuestionDot : Parse Bool := do
  if ← at? .question <&&> nextAt .dot then
    advance
    return true
  return false

/-- One member access, call or template after `obj`, and whether more may follow. -/
def subscript (g : Grammar) (start : Nat) (obj : Tree) (noCall noIndex : Bool) :
    Parse (Tree × Bool) := do
  if ← typed then
    if (← at? .bang) && !(← lineBreak) then
      setExprAllowed false
      advance
      if !obj.isExpr then
        let word := if isCallee obj .super then "super" else "import"
        failAt (← seenSpan) (.nonNullAssertion word)
      return (.expr .nonNull (← spanFrom start) [obj], true)
    if let some found ← typedCall? g start obj noCall then return found
  -- Type arguments count only if no access and no call follows them.
  let args ← instantiation? g
  let optional ← acceptQuestionDot
  let bracket ← here
  if !noIndex then
    let dotted ← if optional && (← at? .dot) then nextAt .bracketOpen else pure false
    if dotted then
      advance
      let bracket ← here
      advance
      return (← indexAccess g start bracket obj optional noCall, true)
    if ← accept .bracketOpen then
      return (← indexAccess g start bracket obj optional noCall, true)
  let chainCall ← if optional && (← at? .dot) then
      nextAt .parenOpen <||> (typed <&&> nextAt (.op .lt))
    else pure false
  if chainCall then advance
  if chainCall || (!noCall && (← at? .parenOpen)) then
    let args ← if (← typed) && (← at? (.op .lt)) then typeArgs g else pure .absent
    return (← callOf g start obj args optional, true)
  if ← accept .dot then return (← nameAccess g start obj optional noCall, true)
  if obj.isExpr then
    let obj ← instantiated start obj args
    if ← at? .backquote then return (← withoutColon (taggedTemplate g obj .absent), true)
    return (obj, false)
  if !isCallee obj .super then fail .importNotAllowed
  fail (if noCall then .invalidSuperCall else .invalidSuper)

/-- All member accesses, calls and templates after `obj`. -/
def subscripts (g : Grammar) (obj : Tree) (noCall noIndex : Bool) : Parse Tree :=
  iterate obj fun e => do
    let (next, more) ← subscript g obj.span.lo e noCall noIndex
    return if more then .inl next else .inr next

/-- A call of `import` for a phase, after the words for it; words after further dots are passed
over. -/
def importCall (g : Grammar) (start : Nat) (noCall : Bool) (phase : ImportPhase) : Parse Tree := do
  let callee := Tree.ofPart (.importCallee phase) (← spanFrom start) []
  iterate () fun _ => do
    match ← someToken with
    | .mark .parenOpen => return .inr ()
    | .mark .dot =>
      advance
      let _ ← anyWord
      return .inl ()
    | _ => unexpected "`.` or `(`"
  subscripts g callee noCall false

/-- What follows the word `import` in an expression, which stands at `start`. -/
def importExpr (g : Grammar) (start : Nat) (noCall : Bool) : Parse Tree := do
  if !(← accept .dot) then return ← importCall g start noCall .evaluation
  let (n, _) ← anyWord
  if n == text "source" then return ← importCall g start noCall .source
  if n != text "meta" then unexpected "meta"
  let span ← spanFrom start
  if !(← context).moduleCode then note span .importMeta
  subscripts g (.expr .importMeta span []) noCall false

end Parse
end InlineTemplates.Script
