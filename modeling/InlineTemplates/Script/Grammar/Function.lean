import InlineTemplates.Script.Grammar.TypeExpr

/-! # Blocks and functions -/

namespace InlineTemplates.Script

/-- Whether a statement is the directive that makes code strict. -/
def isUseStrict : Tree → Bool
  | .node (.stmt .expr) _ [.node (.expr (.string _ (some raw))) _ _] =>
    raw == text "'use strict'" || raw == text "\"use strict\""
  | _ => false

/-- Whether a statement is a string, as directives are. -/
def isDirective : Tree → Bool
  | .node (.stmt .expr) _ [.node (.expr (.string _ _)) _ _] => true
  | _ => false

namespace Parse

/-- Runs a step in which `in` is an operator. -/
def withIn {α : Type} (step : Parse α) : Parse α := within ({ · with allowIn := true }) step

/-- Runs a step after which a colon does not belong to an enclosing conditional. -/
def withoutColon {α : Type} (step : Parse α) : Parse α :=
  within ({ · with colonAhead := false }) step

/-! ## Blocks -/

/-- Items up to the closing brace, which is taken, or up to the end of the source. A first item that
is a directive may make the others strict. -/
def itemsUntilEnd (item : Parse Tree) (directives braced : Bool) : Parse (List Tree) :=
  iterate (([], false) : List Tree × Bool) fun (acc, strict) => do
    let t ← token?
    if t.isNone then
      if braced then note (← currentSpan) (.expected Mark.braceClose.symbol (← currentShown))
      return .inr acc.reverse
    if braced && isMark .braceClose t then
      advance
      return .inr acc.reverse
    let i ← within (fun c => { c with strict := c.strict || strict }) item
    return .inl (i :: acc, strict || (directives && acc.isEmpty && isUseStrict i))

/-- A block in braces. -/
def block (g : Grammar) (directives : Bool) : Parse Tree := do
  let start ← here
  expect .braceOpen
  let items ← itemsUntilEnd g.statementItem directives true
  return .stmt .block (← spanFrom start) items

/-! ## Bodies -/

/-- Runs a step with no labels and nothing remembered of the expression around. -/
def withFreshState {α : Type} (step : Parse α) : Parse α := do
  let s ← get
  modify fun now => { now with labels := [], arrowStart := none, trailingCommas := [] }
  try step
  finally
    modify fun now => { now with
      labels := s.labels, arrowStart := s.arrowStart, trailingCommas := s.trailingCommas }

/-- Runs a step in the body of a function. -/
def inBody {α : Type} (async generator arrow : Bool) (step : Parse α) : Parse α := do
  let c ← context
  if c.ambient && c.dialect.types && (← at? .braceOpen) then note (← currentSpan) .ambientBody
  withFreshState <| within (fun c => { c with
    inAsync := async
    inGenerator := generator
    inPlainFunction := c.inPlainFunction || !arrow
    inFunction := true
    breakAllowed := false
    continueAllowed := false }) step

/-- Notes a directive that makes a body strict when the parameters are not plain names. -/
def checkDirective (body : Tree) (simple : Bool) : Parse Unit := do
  if simple then return ()
  if let some d := (body.parts.takeWhile isDirective).find? isUseStrict then
    note d.span .useStrictParameters

/-- The body of a function. Where there are types it may be missing. -/
def functionBody (g : Grammar) (async generator simple : Bool) : Parse Tree :=
  inBody async generator false do
    if (← typed) && !(← at? .braceOpen) then
      if ← acceptSemicolon then return .absent
    let body ← withIn (block g true)
    checkDirective body simple
    return body

/-- The body of an arrow function: a block or an expression, and whether it is a block. -/
def arrowBody (g : Grammar) (async simple : Bool) : Parse (Tree × Bool) :=
  inBody async false true do
    if ← at? .braceOpen then
      let body ← block g false
      checkDirective body simple
      return (body, true)
    return (← g.assignment, false)

/-- An arrow function that started at `start`, from its body on. -/
def arrowTail (g : Grammar) (start : Nat) (async : Bool) (params : List Tree)
    (typeParams returnType : Tree) : Parse Tree := do
  let (body, isBlock) ← arrowBody g async (areSimple params)
  return .expr (.arrow async isBlock) (← spanFrom start)
    [.list params, body, typeParams, returnType]

/-! ## Functions -/

/-- Notes initializers of parameters of a function without a body. -/
def checkBodiless (params : List Tree) (body : Tree) : Parse Unit := do
  if (← typed) && body.isAbsent then
    for p in params do
      let pat := p.part 0
      if pat.kind == .pat .default then note pat.span .parameterInitializer

/-- A function from its type parameters on; `params` reads the parameters. -/
def functionRest (g : Grammar) (start : Nat) (params : Parse (List Tree)) (async generator : Bool) :
    Parse Tree :=
  within ({ · with inAsync := async, inGenerator := generator }) do
    let typeParams ← typeParams? g false true
    expect .parenOpen
    let ps ← within ({ · with inParameters := true, inFunction := false }) params
    expect .parenClose
    let type ← if (← typed) && (← at? .colon) then returnType g .colon else pure .absent
    let body ← functionBody g async generator (areSimple ps)
    checkBodiless ps body
    return .ofPart (.function async generator) (← spanFrom start) [.list ps, body, typeParams, type]

/-- A method's function. In it `super` may be used. -/
def methodRest (g : Grammar) (start : Nat) (params : Parse (List Tree)) (async generator : Bool) :
    Parse Tree :=
  within ({ · with allowSuper := true, inClassField := false }) do
    functionRest g start params async generator

/-- Parameters other than a first one named `this`. -/
def ordinary (params : List Tree) : List Tree :=
  params.filter fun p => match (p.part 0).kind with
    | .pat (.name n _) => n != text "this"
    | _ => true

/-- The parameters of a getter, which has none. -/
def getterParameters (g : Grammar) (keySpan : Span) : Parse (List Tree) := do
  let params ← parameters g
  if !(ordinary params).isEmpty then note keySpan .getterParameters
  return params

/-- The parameters of a setter, which has one. -/
def setterParameters (g : Grammar) (keySpan : Span) : Parse (List Tree) := do
  let params ← parameters g
  if (ordinary params).length != 1 then note keySpan .setterParameters
  if let p :: _ := params then
    let pat := p.part 0
    if pat.kind == .pat .rest then note pat.span .setterRest
  return params

/-- What a function is read as. -/
inductive FunctionRole where
  | declaration | expression | exported
deriving DecidableEq, Repr

/-- A function from the word `function` on, or from the word `async` before it, which was taken and
started at `asyncStart`: its name, if it has one, and the function itself. -/
def functionFrom (g : Grammar) (role : FunctionRole) (asyncStart : Option Nat) :
    Parse (Tree × Tree) := do
  let start ← match asyncStart with
    | some s => pure s
    | none => here
  let async := asyncStart.isSome
  expectKeyword .function
  let generator ← accept (.op .mul)
  let inner (c : Context) : Context := { c with allowSuper := false, inClassField := false }
  let nameContext (c : Context) : Context :=
    if role == .expression then { inner c with inAsync := async, inGenerator := generator }
    else inner c
  let name ← within nameContext do
    let named := role == .declaration || (← atFreeWord) || ((← typed) && (← atKeyword .this))
    if named then declaredPlainName false else return .absent
  within (fun c => { inner c with colonAhead := false }) do
    let f ← functionRest g start (parameters g) async generator
    if role == .expression && (f.part 1).isAbsent then unexpected "\x7b"
    return (name, f)

/-- A function as an expression. -/
def functionExpr (g : Grammar) (asyncStart : Option Nat) : Parse Tree := do
  let start ← match asyncStart with
    | some s => pure s
    | none => here
  let (name, f) ← functionFrom g .expression asyncStart
  return .expr .function (← spanFrom start) [name, f]

/-- A function as a declaration. -/
def functionDecl (g : Grammar) (asyncStart : Option Nat) : Parse Tree := do
  let start ← match asyncStart with
    | some s => pure s
    | none => here
  let (name, f) ← functionFrom g .declaration asyncStart
  return .stmt (.function false) (← spanFrom start) [name, f]

/-- Whether an async function starts here. -/
def atAsyncFunction : Parse Bool := do
  atName "async" <&&> nextIs (isKeyword .function) <&&> notM lineBreakAfter

end Parse
end InlineTemplates.Script
