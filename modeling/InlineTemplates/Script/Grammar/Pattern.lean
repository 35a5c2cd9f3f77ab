import InlineTemplates.Script.Grammar.Name

/-! # Patterns -/

namespace InlineTemplates.Script

/-- Whether an expression may be assigned to. -/
def isTarget (strict : Bool) : Tree → Bool
  | .node (.expr (.name n)) _ _ => !(strict && isEvalOrArguments n)
  | .node (.expr .paren) _ [e] => isTarget strict e
  | .node (.expr .member) _ _ | .node (.expr .index) _ _ => true
  | .node (.expr .superMember) _ _ | .node (.expr .superIndex) _ _ => true
  | .node (.expr .nonNull) _ [e] => isTarget strict e
  | .node (.expr .typeAssertion) _ (e :: _) => isTarget strict e
  | .node (.expr .asType) _ (e :: _) => isTarget strict e
  | .node (.expr .instantiation) _ (e :: _) => isTarget strict e
  | .node (.expr .satisfies) _ (e :: _) => isTarget strict e
  | _ => false

/-- Whether an expression can stand left of an assignment at all, be it wrong or not. -/
def canBeTarget : Tree → Bool
  | .node (.pat (.name _ _)) _ _ | .node (.pat (.array _)) _ _ => true
  | .node (.pat (.object _)) _ _ | .node (.pat .invalid) _ _ => true
  | .node (.expr k) _ _ =>
    match k with
    | .name _ | .member | .index | .superMember | .superIndex | .paren | .chain _ | .nonNull
    | .typeAssertion | .asType | .instantiation | .satisfies | .invalid => true
    | _ => false
  | _ => false

/-- What an expression is read again as. -/
inductive PatternRole where
  /-- Parameters of an arrow function, and what is inside them. -/
  | binding | bindingElement
  /-- What stands left of an assignment, and what is inside it. -/
  | assignment | assignmentElement
deriving DecidableEq, Repr

def PatternRole.element : PatternRole → PatternRole
  | binding | bindingElement => bindingElement
  | assignment | assignmentElement => assignmentElement

/-- Literals, names and the like, which are tested as targets inside a destructuring assignment. -/
def isSimpleElement : ExprKind → Bool
  | .member | .index | .superMember | .superIndex | .call | .new _ | .string _ _ | .number _ _
  | .bigInt _ _ | .bool _ | .null | .regex _ _ | .name _ | .function | .classExpr | .paren
  | .template | .asType => true
  | _ => false

namespace Parse

/-- Notes that an expression cannot be assigned to. -/
def checkTarget (e : Tree) : Parse Unit := do
  if !isTarget (← context).strict e then note e.span .leftHandSide

/-- The name of an expression as a name that is declared or assigned. -/
def namePattern (n : Text) (span : Span) : Tree := .pat (.name n false) span [.absent]

def invalidPattern (span : Span) : Parse Tree := do
  note span .notPattern
  return .pat .invalid span []

/-- The number of missing elements at the end of a list. -/
def trailingHoles (ts : List Tree) : Nat := (ts.reverse.takeWhile (·.isAbsent)).length

/-- Reads a name again as a pattern. -/
def toNamePattern (role : PatternRole) (n : Text) (span : Span) : Parse Tree := do
  let target := Tree.expr (.name n) span []
  if role == .assignment then checkTarget target
  if role == .assignmentElement && !isTarget (← context).strict target then
    note span .assignToThis
  return namePattern n span

mutual
/-- Reads an expression again as a pattern. -/
def toPattern (role : PatternRole) : Tree → Parse Tree
  | .node (.expr .invalid) span _ => return .pat .invalid span []
  | .node (.expr (.name n)) span _ => toNamePattern role n span
  | .node (.expr .object) span ps => do
    return .pat (.object false) span [.list (← toProperties role span.lo ps), .absent]
  | .node (.expr .array) span ps => do
    let holes := trailingHoles ps
    let elements ← toElements role span.lo (holes == 0) (ps.length - holes) ps
    return .pat (.array false) span [.list elements, .absent]
  | .node (.expr (.assign .plain)) span [left, right] => do
    if role == .assignment then
      let e := Tree.node (.expr (.assign .plain)) span [left, right]
      checkTarget e
      return e
    return .pat .default span [← toPattern role left, right]
  -- The left-hand side of an assignment is a pattern already.
  | .node (.pat (.name n _)) span _ => toNamePattern role n span
  | .node (.expr k) span ps => do
    let e := Tree.node (.expr k) span ps
    match role with
    | .assignment =>
      checkTarget e
      return e
    | .assignmentElement =>
      if isSimpleElement k then
        if !isTarget (← context).strict e then note span .assignToThis
        return e
      note span .notPattern
      invalidPattern span
    | _ => invalidPattern span
  | t => return t

/-- The properties of an object as those of a pattern. -/
def toProperties (role : PatternRole) (start : Nat) : List Tree → Parse (List Tree)
  | [] => return []
  | p :: rest => do
    let first ← toProperty role start rest.isEmpty p
    return first :: (← toProperties role start rest)

def toProperty (role : PatternRole) (start : Nat) (isLast : Bool) : Tree → Parse Tree
  | .node (.part (.name n)) span _ => return .pat .shorthand span [namePattern n span, .absent]
  | .node (.prop .keyValue) span [key, value] => do
    return .pat .keyValue span [key, ← toPattern role.element value]
  | .node (.prop .assign) span [.node (.part (.name n)) nameSpan _, value] =>
    return .pat .shorthand span [namePattern n nameSpan, value]
  | .node (.part .spread) span [e] => do
    if !isLast then note span .restNotLast
    else if let some comma := (← get).trailingCommas.lookup start then note comma .commaAfterRest
    let arg ← if role.element == .bindingElement then
        match e with
        | .node (.expr (.name n)) nameSpan _ => pure (namePattern n nameSpan)
        | _ => do
          note span .patternAfterDots
          pure (.pat .invalid span [])
      else toPattern role.element e
    if arg.kind == .pat .default then note span .restInitializer
    return .pat .rest span [arg, .absent]
  | .node _ span _ => failAt span .notPattern

/-- The first `n` elements of an array as those of a pattern. Only the last may be a rest. -/
def toElements (role : PatternRole) (start : Nat) (mayRest : Bool) :
    Nat → List Tree → Parse (List Tree)
  | _, [] => return []
  | 0, _ => return []
  | n + 1, .node (.part .spread) span [e] :: rest => do
    if n == 0 && mayRest then
      if e.kind == .expr (.assign .plain) then note span .restInitializer
      if let some comma := (← get).trailingCommas.lookup start then note comma .commaAfterRest
      let arg ← toPattern role.element e
      return [.pat .rest e.span [arg, .absent]]
    note span .restNotLast
    toElements role start mayRest n rest
  | n + 1, .node .absent span ps :: rest => do
    return .node .absent span ps :: (← toElements role start mayRest n rest)
  | n + 1, e :: rest => do
    let first ← toPattern role.element e
    return first :: (← toElements role start mayRest n rest)
end

/-- Reads the left-hand side of an assignment. -/
def toTarget (e : Tree) : Parse Tree := do
  let t ← toPattern .assignment e
  if canBeTarget t then return t
  failAt e.span .invalidTarget

/-! ## Binding patterns -/

def isAmbient : Parse Bool := do return (← context).ambient

/-- An initializer after a pattern that starts at `start`. -/
def withDefault (g : Grammar) (start : Nat) (left : Tree) : Parse Tree := do
  if ← accept (.assign .plain) then
    let right ← within ({ · with allowIn := true }) g.assignment
    let span ← spanFrom start
    if (← context).ambient then note span .parameterInitializer
    return .pat .default span [left, right]
  return left

/-- A pattern with an optional initializer. -/
def bindingElement (g : Grammar) : Parse Tree := do
  let start ← here
  withDefault g start (← g.pattern)

/-- The pattern after the dots of a rest element that start at `start`. -/
def restElement (g : Grammar) (start : Nat) : Parse Tree := do
  let arg ← g.pattern
  return .pat .rest (← spanFrom start) [arg, .absent]

def arrayPattern (g : Grammar) : Parse Tree := do
  let start ← here
  expect .bracketOpen
  let elements ← iterate (([], none) : List Tree × Option Span) fun (acc, rest) => do
    if (← atEnd) || (← at? .bracketClose) then return .inr acc.reverse
    if ← accept .comma then return .inl (Tree.absent :: acc, rest)
    if let some span := rest then note span .restNotLast
    let elementStart ← here
    let isRest ← accept .ellipsis
    let e ← if isRest then restElement g elementStart else bindingElement g
    if !(← at? .bracketClose) then
      expect .comma
      if isRest && (← at? .bracketClose) then note (← previous) .commaAfterRest
    return .inl (e :: acc, if isRest then some e.span else rest)
  expect .bracketClose
  let optional ← isAmbient <&&> accept .question
  let elements := elements.take (elements.length - trailingHoles elements)
  return .pat (.array optional) (← spanFrom start) [.list elements, .absent]

/-- A property of an object pattern. -/
def patternProperty (g : Grammar) : Parse Tree := do
  let start ← here
  if ← accept .ellipsis then return ← restElement g start
  let key ← propertyName g
  if ← accept .colon then
    let value ← bindingElement g
    return .pat .keyValue (← spanFrom start) [key, value]
  match key with
  | .node (.part (.name n)) span _ =>
    let value ← if ← accept (.assign .plain) then
        within ({ · with allowIn := true }) g.assignment
      else pure .absent
    return .pat .shorthand (← spanFrom start) [namePattern n span, value]
  | _ => unexpected "an identifier"

/-- Notes rest properties that are not last, or that have a pattern after their dots. -/
def checkRestProperties (comma : Option Span) : List Tree → Parse Unit
  | [] => return ()
  | [.node (.pat .rest) span (arg :: _)] => do
    match arg.kind with
    | .pat (.name _ _) => if let some c := comma then note c .commaAfterRest
    | _ => failAt span .patternAfterDots
  | [_] => return ()
  | .node (.pat .rest) span _ :: rest => do
    note span .restNotLast
    checkRestProperties comma rest
  | _ :: rest => checkRestProperties comma rest

/-- What stands between braces, separated by commas: the parts and a comma at the end. -/
def braced (part : Parse Tree) : Parse (List Tree × Option Span) := do
  expect .braceOpen
  let found ← iterate (([], none) : List Tree × Option Span) fun (acc, comma) => do
    if ← at? .braceClose then return .inr (acc.reverse, comma)
    let p ← part
    if ← at? .braceClose then return .inl (p :: acc, comma)
    expect .comma
    let comma ← if ← at? .braceClose then pure (some (← previous)) else pure comma
    return .inl (p :: acc, comma)
  expect .braceClose
  return found

def objectPattern (g : Grammar) : Parse Tree :=
  within ({ · with colonAhead := false }) do
    let start ← here
    let (props, comma) ← braced (patternProperty g)
    let span ← spanFrom start
    checkRestProperties comma props
    let optional ← isAmbient <&&> accept .question
    return .pat (.object optional) span [.list props, .absent]

/-- A name or a destructuring pattern. -/
def bindingPattern (g : Grammar) (reservesLet : Bool) : Parse Tree := do
  match ← someToken with
  | .name _ _ | .keyword _ => declaredName reservesLet
  | .mark .bracketOpen => arrayPattern g
  | .mark .braceOpen => objectPattern g
  | _ => unexpected "yield, an identifier, [ or \x7b"

end Parse
end InlineTemplates.Script
