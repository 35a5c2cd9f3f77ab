import InlineTemplates.Script.Grammar.Statement

/-! # Declarations of types, enumerations and namespaces -/

namespace InlineTemplates.Script.Parse

/-! ## Interfaces and aliases -/

/-- An interface from its name on. -/
def interfaceFrom (g : Grammar) (start : Nat) : Parse Tree := do
  let name ← anyName
  if let .part (.name n) := name.kind then
    if typeNames.contains n then note name.span .interfaceName
  let params ← typeParams? g true false
  let parents ← if ← acceptKeyword .extends then heritageClause g else pure []
  if ← atKeyword .extends then
    note (← currentSpan) .extendsTwice
    iterate () fun _ => do
      if (← atEnd) || (← at? .braceOpen) then return .inr ()
      advance
      return .inl ()
  let bodyStart ← here
  let members ← inType (typeMembers g)
  let body := Tree.ofPart .interfaceBody (← spanFrom bodyStart) members
  return .stmt (.interface false) (← spanFrom start) [name, params, .list parents, body]

/-- An alias of a type from its name on. -/
def aliasFrom (g : Grammar) (start : Nat) : Parse Tree := do
  let name ← anyName
  let params ← typeParams? g true false
  let type ← inType do
    if !(← accept (.assign .plain)) then fail (.unexpected (← currentOptional) "=")
    g.type
  expectSemicolon
  return .stmt (.typeAlias false) (← spanFrom start) [name, params, type]

/-! ## Enumerations -/

def enumMember (g : Grammar) : Parse Tree := do
  let start ← here
  let name ← match ← someToken with
    | .string v raw => do
      advance
      pure (Tree.ofPart (.string v (some raw)) (← previous) [])
    | .number v raw => do
      advance
      let span ← previous
      note span .enumNumericName
      pure (Tree.ofPart (.string v.shown.toList (some (['"'] ++ raw ++ ['"']))) span [])
    | .mark .bracketOpen => do
      advance
      let _ ← g.expr
      note (← spanFrom start) .enumComputedName
      expect .bracketClose
      pure (Tree.ofPart (.name []) (← spanFrom start) [])
    | _ => anyName
  let init ← if ← accept (.assign .plain) then g.assignment
    else if (← at? .comma) || (← at? .braceClose) then pure .absent
    else do
      let p ← here
      note ⟨p, p⟩ .expectedSemicolon
      -- What stands here is passed over and counts as the comma.
      modify fun s => { s with current := s.current.map fun t => { t with token := .mark .comma } }
      pure .absent
  return .ofPart .enumMember (← spanFrom start) [name, init]

/-- An enumeration from its name on. -/
def enumFrom (g : Grammar) (start : Nat) (const : Bool) : Parse Tree := do
  let name ← anyName
  expect .braceOpen
  let members ← iterate ([] : List Tree) fun acc => do
    let _ ← someToken
    if ← at? .braceClose then return .inr acc.reverse
    let m ← enumMember g
    if !(← accept .comma) then
      let _ ← someToken
      if !(← at? .braceClose) then
        note (← currentSpan) (.expected Mark.comma.symbol (← currentShown))
    return .inl (m :: acc)
  expect .braceClose
  return .stmt (.enum false const) (← spanFrom start) [name, .list members]

/-! ## Namespaces -/

/-- What a namespace holds, in braces. -/
def moduleBlock (g : Grammar) : Parse Tree := do
  let start ← here
  expect .braceOpen
  let items ← itemsUntilEnd g.moduleItem false true
  return .ofPart .moduleBlock (← spanFrom start) items

/-- A namespace from its name on; a name of several words makes namespaces inside each other. -/
def namespaceFrom (g : Grammar) (start : Nat) : Parse Tree := do
  let name ← anyName
  let body ← if ← accept .dot then do g.namespaceTail (← here) else moduleBlock g
  return .stmt (.namespace false false) (← spanFrom start) [name, body]

/-- What is known of a module outside, by its specifier, or of the global scope. -/
def outerModuleFrom (g : Grammar) (start : Nat) : Parse Tree := do
  let global ← atName "global"
  let name ← if global then anyName else do
      match ← stringPart? with
      | some s => pure s
      | none => unexpected "global or a string literal"
  let body ← if ← at? .braceOpen then moduleBlock g else do
      expectSemicolon
      pure .absent
  return .stmt (.namespace false global) (← spanFrom start) [name, body]

/-! ## Declarations after a word -/

/-- The declaration as one that only tells of something outside. -/
def asAmbient : Tree → Tree
  | .node (.stmt k) span ps =>
    let k' : StmtKind := match k with
      | .function _ => .function true
      | .classDecl _ => .classDecl true
      | .var kind _ => .var kind true
      | .interface _ => .interface true
      | .typeAlias _ => .typeAlias true
      | .enum _ c => .enum true c
      | .namespace _ global => .namespace true global
      | k => k
    .node (.stmt k') span ps
  | t => t

/-- The declaration that follows its word, if one does. With `atWord` the word is the current token,
else it was taken before. -/
def declarationAfter? (g : Grammar) (start : Nat) (word : Text) (atWord : Bool) :
    Parse (Option Tree) := do
  let take : Parse Unit := if atWord then advance else pure ()
  let named : Parse Bool := if atWord then pure true else atFreeWord
  if word == text "abstract" then
    if atWord || ((← atKeyword .classWord) && !(← lineBreak)) then
      take
      return some (← classDecl g start start true)
  else if word == text "enum" then
    if ← named then
      take
      return some (← enumFrom g start false)
  else if word == text "interface" then
    if ← named then
      take
      return some (← interfaceFrom g start)
  else if word == text "module" then
    if !(← lineBreak) then
      take
      match ← someToken with
      | .string _ _ => return some (← outerModuleFrom g start)
      | _ => if ← named then return some (← namespaceFrom g start)
  else if word == text "namespace" then
    if ← named then
      take
      return some (← namespaceFrom g start)
  else if word == text "type" then
    if atWord || (!(← lineBreak) && (← atFreeWord)) then
      take
      return some (← aliasFrom g start)
  return none

/-- The letters of the current token when it is a word. -/
def wordHere? : Parse (Option Text) := do
  return match ← token? with
    | some (.name n _) => some n
    | some (.keyword k) => some (text k.word)
    | _ => none

/-- A declaration after the word `declare`, which stands at `start`. -/
def ambientDeclaration? (g : Grammar) (start : Nat) : Parse (Option Tree) := do
  if (← context).ambient then note (← spanFrom start) .declareTwice
  let from' (t : Tree) : Tree := asAmbient (t.withSpan ⟨start, t.span.hi⟩)
  within ({ · with ambient := true }) do
    if ← atKeyword .function then
      return some (from' (← functionDecl g none))
    if ← atKeyword .classWord then
      return some (from' (← classDecl g start start false))
    if ← atKeyword .const <&&> nextIs (isName "enum") then
      advance
      let _ ← token?
      advance
      return some (from' (← enumFrom g start true))
    if ← atKeyword .const <||> atKeyword .var <||> atKeyword .let then
      return some (from' (← variableDeclaration g false))
    if ← atName "global" then return some (asAmbient (← outerModuleFrom g start))
    match ← wordHere? with
    | some w => return (← declarationAfter? g start w true).map asAmbient
    | none => return none

/-- The declaration that an expression statement turns out to be: its expression was the name
`word`. -/
def declarationOfName? (g : Grammar) (word : Text) (span : Span) : Parse (Option Tree) := do
  if word == text "declare" then return ← ambientDeclaration? g span.lo
  if word == text "global" then
    if !(← at? .braceOpen) then return none
    let body ← moduleBlock g
    let name := Tree.ofPart (.name word) span []
    return some (.stmt (.namespace false true) (← spanFrom span.lo) [name, body])
  declarationAfter? g span.lo word false

/-- A declaration that starts with its word on the same line as its name. -/
def wordDeclaration? (g : Grammar) (start : Nat) : Parse (Option Tree) := do
  if !(← typed) then return none
  let t ← token?
  let some w := ["interface", "type", "enum"].find? (isName · t) | return none
  if ← notM nextAtWord <||> lineBreakAfter then return none
  advance
  if w == "interface" then return some (← interfaceFrom g start)
  if w == "type" then return some (← aliasFrom g start)
  return some (← enumFrom g start false)

/-! ## Statements and declarations -/

/-- The statement that an expression makes, or a labelled statement or a declaration, when the
expression is a name. -/
def expressionStatement (g : Grammar) (start : Nat) : Parse Tree := do
  let e ← withIn g.expr
  match e with
  | .node (.expr (.name n)) span _ =>
    if n == text "interface" && (← lineBreak) then
      noteInModule span (.nameInStrict n)
      let _ ← acceptSemicolon
      return .stmt .expr (← spanFrom start) [e]
    if ← accept .colon then return ← labelled g n span
    if ← typed then
      if let some d ← declarationOfName? g n span then return d
      if n == text "enum" || n == text "interface" then noteInModule span (.nameInStrict n)
      if ["public", "static", "abstract"].any (text · == n) then
        if ← acceptName "interface" then
          note span .interfaceName
          return ← interfaceFrom g start
  | _ => pure ()
  if ← acceptSemicolon then return .stmt .expr (← spanFrom start) [e]
  match ← token? with
  | some (.mark (.op _)) =>
    note (← currentSpan) .expectedSemicolon
    let e ← g.operators e 0
    return .stmt .expr (← spanFrom start) [e]
  | _ => fail .expectedSemicolonAfterExpr

/-- A statement that starts with the word `await`: a declaration of variables whose disposal is
awaited, or an expression, of which only binary operators can be at the top. -/
def awaitStatement (g : Grammar) (start : Nat) : Parse Tree := do
  let using? ← nextIs (isName "using")
  advance
  if using? then
    if let some d ← usingDecl? g start true then return d
  let e ← awaitRest g start
  let e ← withIn (g.operators e 0)
  let _ ← acceptSemicolon
  return .stmt .expr (← spanFrom start) [e]

/-- A declaration of variables that starts with `let`, `const` or `using`, or one that awaits their
disposal; none when the word is a name. The word `await` before a name `using` is passed over even
if that name declares nothing. -/
def blockVariables? (g : Grammar) (start : Nat) : Parse (Option Tree) := do
  match ← token? with
  | some (.keyword .const) => return some (← variableDeclaration g false)
  | some (.keyword .let) =>
    if ← nextIs followsLet then return some (← variableDeclaration g false)
    return none
  | some (.keyword .await) =>
    if ← notM (nextIs (isName "using")) then return none
    advance
    usingDecl? g start true
  | t => if isName "using" t then usingDecl? g start false else return none

/-- Runs a step where a statement stands. -/
def asStatement {α : Type} (step : Parse α) : Parse α :=
  within ({ · with colonAhead := false, allowUsing := true }) step

/-- A statement, or a declaration where one is allowed. -/
def statementOf (g : Grammar) (declarations : Bool) : Parse Tree :=
  asStatement do
    let start ← here
    let t ← someToken
    if ← typed <&&> atKeyword .const <&&> nextIs (isName "enum") then
      advance
      advance
      return ← enumFrom g start true
    if declarations then
      if let some d ← blockVariables? g start then return d
    match t with
    | .keyword k =>
      if (k == .function || k == .classWord) && !declarations then
        note (← currentSpan) .declarationNotAllowed
      match k with
      | .break | .continue => jumpStatement
      | .debugger =>
        advance
        expectSemicolon
        return .stmt .debugger (← spanFrom start) []
      | .do => doStatement g
      | .for => forStatement g
      | .function => functionDecl g none
      | .classWord => classDecl g start start false
      | .if => ifStatement g
      | .return => returnStatement g
      | .switch => switchStatement g
      | .throw => throwStatement g
      | .catch | .finally => strayClause g
      | .try => tryStatement g
      | .with => withStatement g
      | .while => whileStatement g
      | .var => variableDeclaration g false
      | _ => expressionStatement g start
    | .mark .braceOpen => block g false
    | .mark .semicolon =>
      advance
      return .stmt .empty (← spanFrom start) []
    | _ =>
      if let some d ← wordDeclaration? g start then return d
      if ← atAsyncFunction then
        advance
        return ← functionDecl g (some start)
      expressionStatement g start

/-- Whether an import or an export starts here. -/
def atImportOrExport : Parse Bool := do
  return (← atKeyword .import) || (← atKeyword .export)

/-- A statement where imports and exports may not stand. -/
def innerStatement (g : Grammar) (declarations : Bool) : Parse Tree := do
  if !(← atImportOrExport) then return ← statementOf g declarations
  let start ← here
  let isExpr ← atKeyword .import <&&> nextIs fun t => isMark .parenOpen t || isMark .dot t
  if isExpr then
    let e ← g.expr
    let _ ← acceptSemicolon
    return .stmt .expr (← spanFrom start) [e]
  fail .importOutsideModule

end InlineTemplates.Script.Parse
