import InlineTemplates.Script.Grammar.Expression

/-! # Statements -/

namespace InlineTemplates.Script

namespace Parse

/-! ## Variables -/

/-- Whether the token may follow the word `let` in a declaration. -/
def followsLet : Option Token → Bool
  | some (.mark .braceOpen) | some (.mark .bracketOpen) | some (.name _ _) => true
  | some (.keyword k) => k == .let || k == .yield || k == .await
  | _ => false

/-- A variable with its initializer. -/
def declarator (g : Grammar) (kind : VarKind) (inLoop : Bool) : Parse Tree := do
  let start ← here
  let pat ← bindingPattern g (kind != .var)
  let isName := match pat.kind with
    | .pat (.name _ _) => true
    | _ => false
  let definite ← if isName then typed <&&> accept .bang else pure false
  let pat := withType pat (← annotatedType? g) pat.span
  let init ← if inLoop && ((← atName "of") || (← atKeyword .in)) then pure .absent
    else if ← accept (.assign .plain) then g.assignment
    else do
      let c ← context
      if !c.ambient then
        if kind == .const && c.strict then note (← spanFrom start) .constWithoutInit
        else if !isName then failAt (← spanFrom start) .patternWithoutInit
      pure .absent
  return .ofPart (.declarator definite) (← spanFrom start) [pat, init]

/-- Variables separated by commas; a comma at the end is noted. -/
def declarators (afterWord : Span) (one : Parse Tree) : Parse (List Tree) :=
  iterate ([] : List Tree) fun acc => do
    if (← at? .semicolon) || (← atEnd) then
      let p ← previous
      note (if p == afterWord then ⟨p.hi, p.hi⟩ else p) .trailingComma
      return .inr acc.reverse
    let acc := (← one) :: acc
    if ← accept .comma then return .inl acc
    return .inr acc.reverse

/-- Passes tokens until a statement may end. -/
def skipToSemicolon : Parse Unit :=
  iterate () fun _ => do
    if ← acceptSemicolon then return .inr ()
    advance
    return match ← token? with
      | some (.broken _) => .inr ()
      | _ => .inl ()

/-- Whether a word that should follow variables follows the word that declares them, as in
`for (let of xs)`. -/
def atMissingVariables (g : Grammar) : Parse Bool := do
  if !((← atName "of") || (← atKeyword .in)) then return false
  lookAhead do
    advance
    let _ ← g.assignment
    accept .parenClose

/-- The declaration of variables, from its word on. -/
def variableDeclaration (g : Grammar) (inLoop : Bool) : Parse Tree := do
  let start ← here
  let kind : VarKind := match ← token? with
    | some (.keyword .const) => .const
    | some (.keyword .let) => .let
    | _ => .var
  advance
  let word ← previous
  let missing ← if inLoop then typed <&&> atMissingVariables g else pure false
  if missing then
    note ⟨word.hi, word.hi⟩ .emptyDeclarations
    return .stmt (.var kind false) (← spanFrom start) []
  let one := within (fun c => { c with allowIn := c.allowIn || kind != .var || !inLoop })
    (declarator g kind inLoop)
  let ds ← declarators word one
  if !inLoop then
    if !(← acceptSemicolon) then
      note (← currentSpan) .expectedSemicolon
      -- An expression that stands here is read and given up.
      try
        let _ ← g.expr
      catch _ => pure ()
      skipToSemicolon
  return .stmt (.var kind false) (← spanFrom start) ds

/-- Variables that are disposed of at the end of their block, from the word `using` on. -/
def usingDecl? (g : Grammar) (start : Nat) (await : Bool) : Parse (Option Tree) := do
  if ← lineBreakAfter <||> notM nextAtFreeWord then return none
  advance
  let ds ← declarators .nowhere (declarator g .var false)
  let span ← spanFrom start
  let c ← context
  if !c.dialect.types then note span .usingNotEnabled
  if !c.allowUsing then note span .usingNotAllowed
  for d in ds do
    match (d.part 0).kind with
    | .pat (.name _ _) => pure ()
    | _ => note span .usingPattern
    if (d.part 1).isAbsent then note span .usingWithoutInit
  return some (.stmt (.using await) (← spanFrom start) ds)

/-! ## Branches and loops -/

/-- An expression in parentheses. -/
def parenthesized (g : Grammar) : Parse Tree := do
  expect .parenOpen
  let e ← withIn g.expr
  expect .parenClose
  return e

/-- The statement with `alt` as the branch that its last `else if` lacks. -/
def withElse (alt : Tree) (stop : Nat) : Tree → Tree
  | .node (.stmt .if) span [test, yes, no] =>
    .node (.stmt .if) ⟨span.lo, stop⟩ [test, yes, if no.isAbsent then alt else withElse alt stop no]
  | t => t

/-- The branches after `else`, read one after the other and then put into each other. -/
def elseBranches (g : Grammar) : Parse Tree :=
  iterate (none : Option Tree) fun chain => do
    let join (alt : Tree) : Parse Tree := do
      match chain with
      | some c => return withElse alt (← lastEnd) c
      | none => return alt
    if !(← acceptKeyword .else) then return .inr (.ofOption chain)
    if ← atKeyword .if then
      let alt ← within ({ · with ignoreElse := true }) g.statement
      return .inl (some (← join alt))
    let alt ← within ({ · with ignoreElse := false }) g.statement
    return .inr (← join alt)

def ifStatement (g : Grammar) : Parse Tree := do
  let start ← here
  advance
  let test ← within ({ · with ignoreElse := false }) (parenthesized g)
  let yes ← within ({ · with ignoreElse := false }) g.statement
  let no ← if (← context).ignoreElse then pure .absent else elseBranches g
  return .stmt .if (← spanFrom start) [test, yes, no]

/-- Runs a step in the body of a loop. -/
def inLoop {α : Type} (step : Parse α) : Parse α :=
  within ({ · with breakAllowed := true, continueAllowed := true }) step

def whileStatement (g : Grammar) : Parse Tree := do
  let start ← here
  advance
  let test ← parenthesized g
  let body ← inLoop g.statement
  return .stmt .while (← spanFrom start) [test, body]

def doStatement (g : Grammar) : Parse Tree := do
  let start ← here
  advance
  let body ← inLoop g.statement
  expectKeyword .while
  let test ← parenthesized g
  let _ ← acceptSemicolon
  return .stmt .doWhile (← spanFrom start) [test, body]

/-- The head of a loop: what it runs through, or its three parts. -/
inductive LoopHead where
  | parts (init test update : Tree)
  | keys (left right : Tree)
  | values (left right : Tree)

/-- The rest of a head that runs through keys or values. -/
def eachHead (g : Grammar) (left : Tree) : Parse LoopHead := do
  let isValues ← atName "of"
  advance
  if isValues then return .values left (← withIn g.assignment)
  match left.kind with
  | .stmt (.using _) => note left.span .usingInForIn
  | _ => pure ()
  return .keys left (← withIn g.expr)

/-- The rest of a head of three parts after the first semicolon. -/
def partsHead (g : Grammar) (init : Tree) : Parse LoopHead := do
  let test ← if ← accept .semicolon then pure .absent else do
      let e ← withIn g.expr
      expectMark .semicolon
      pure e
  let update ← if ← at? .parenClose then pure .absent else withIn g.expr
  return .parts init test update
where
  expectMark (m : Mark) : Parse Unit := do
    if !(← accept m) then failExpected m.symbol

/-- Notes what variables in a head that runs through something may not have. -/
def checkLoopVariables (decl : Tree) (keys : Bool) : Parse Unit := do
  match decl.parts with
  | [d] =>
    if !(d.part 1).isAbsent then note (d.part 0).span .loopInitializer
    if ← typed then
      let type := match d.part 0 with
        | .node (.pat _) _ ps => ps.getLast?.getD .absent
        | _ => .absent
      if type.kind == .part .annotatedType then note (d.part 0).span .forOfType
  | ds => (ds.drop 1).forM fun d => note (d.part 0).span .loopVariables
  if keys && (← typed) then
    for d in decl.parts do
      match (d.part 0).kind with
      | .pat (.name _ _) => pure ()
      | _ => note (d.part 0).span .forInPattern

/-- The variables that a head declares with `using`, where a name was read that is that word. -/
def loopUsing? (start : Nat) (init : Tree) : Parse (Option Tree) := do
  let isUsing : Tree → Bool
    | .node (.expr (.name n)) _ _ => n == text "using"
    | _ => false
  let await := match init with
    | .node (.expr .await) _ [e] => isUsing e
    | _ => false
  if !(← typed) || !(isUsing init || await) || (← atName "of") then return none
  if !(← nextIs fun t => isName "of" t || isKeyword .in t) then return none
  let name ← declaredName false
  let span ← spanFrom start
  return some (.stmt (.using await) span [.ofPart (.declarator false) span [name, .absent]])

def loopHead (g : Grammar) : Parse LoopHead := do
  let declares ← atKeyword .const <||> atKeyword .var <||> (atKeyword .let <&&> nextIs followsLet)
  if declares then
    let decl ← variableDeclaration g true
    let keys ← atKeyword .in
    if keys || (← atName "of") then
      checkLoopVariables decl keys
      return ← eachHead g decl
    if !(← accept .semicolon) then failExpected Mark.semicolon.symbol
    return ← partsHead g decl
  if ← accept .semicolon then return ← partsHead g .absent
  let start ← here
  let init ← within ({ · with allowIn := false }) g.expr
  if let some decl ← loopUsing? start init then return ← eachHead g decl
  let keys ← atKeyword .in
  if keys || (← atName "of") then
    let pat ← toPattern .assignment init
    if keys && (← typed) then
      match pat.kind with
      | .pat (.name _ _) | .expr _ => pure ()
      | _ => note pat.span .forInPattern
    return ← eachHead g pat
  if !(← accept .semicolon) then failExpected Mark.semicolon.symbol
  partsHead g init

def forStatement (g : Grammar) : Parse Tree := do
  let start ← here
  advance
  let awaitStart ← here
  let await ← acceptKeyword .await
  let awaitSpan ← spanFrom awaitStart
  expect .parenOpen
  let head ← within ({ · with forInit := true, forAwait := await }) (loopHead g)
  expect .parenClose
  let body ← inLoop g.statement
  let span ← spanFrom start
  match head with
  | .parts init test update =>
    if await then failAt awaitSpan .forAwait
    return .stmt .for span [init, test, update, body]
  | .keys left right =>
    if await then failAt awaitSpan .forAwait
    return .stmt .forIn span [left, right, body]
  | .values left right => return .stmt (.forOf await) span [left, right, body]

/-! ## Other statements -/

/-- A case of a switch, unless there is no further one. -/
def switchCase? (g : Grammar) (defaultSeen : Bool) : Parse (Option Tree) := do
  let isCase ← atKeyword .case
  if !isCase && !(← atKeyword .default) then return none
  let start ← here
  advance
  let test ← if isCase then withIn g.expr else do
      if defaultSeen then failAt (← seenSpan) .defaultTwice
      pure .absent
  expect .colon
  let body ← collect do
    if (← atEnd) || (← atKeyword .case) || (← atKeyword .default) || (← at? .braceClose) then
      return none
    return some (← g.statementItem)
  return some (.ofPart .case (← spanFrom start) [test, .list body])

def switchStatement (g : Grammar) : Parse Tree := do
  let start ← here
  advance
  let subject ← parenthesized g
  expect .braceOpen
  let cases ← within ({ · with breakAllowed := true }) <|
    iterate (([], false) : List Tree × Bool) fun (acc, defaultSeen) => do
      match ← switchCase? g defaultSeen with
      | some c => return .inl (c :: acc, defaultSeen || (c.part 0).isAbsent)
      | none => return .inr acc.reverse
  expect .braceClose
  return .stmt .switch (← spanFrom start) [subject, .list cases]

/-- The name of what is caught, in parentheses. -/
def catchParameter (g : Grammar) : Parse Tree := do
  if !(← accept .parenOpen) then return .absent
  let pat ← bindingPattern g false
  let typeStart ← here
  let pat ← if ← typed <&&> accept .colon then do
      let t ← inType g.type
      let type := Tree.ofPart .annotatedType (← spanFrom typeStart) [t]
      pure (withType pat type pat.span)
    else pure pat
  expect .parenClose
  return pat

def catchClause? (g : Grammar) : Parse Tree := do
  let start ← here
  if !(← acceptKeyword .catch) then return .absent
  let param ← catchParameter g
  let body ← block g false
  return .ofPart .catchClause (← spanFrom start) [param, body]

def finally? (g : Grammar) : Parse Tree := do
  if ← acceptKeyword .finally then block g false else return .absent

def tryStatement (g : Grammar) : Parse Tree := do
  let start ← here
  advance
  let body ← block g false
  let p ← here
  let handler ← catchClause? g
  let finalizer ← finally? g
  if handler.isAbsent && finalizer.isAbsent then note ⟨p, p⟩ .expectedSemicolon
  return .stmt .try (← spanFrom start) [body, handler, finalizer]

/-- A clause that belongs to a `try` which is not there. -/
def strayClause (g : Grammar) : Parse Tree := do
  let span ← currentSpan
  note span .expectedSemicolon
  try
    let _ ← catchClause? g
  catch _ => pure ()
  try
    let _ ← finally? g
  catch _ => pure ()
  return .stmt .expr span [.expr .invalid span []]

def withStatement (g : Grammar) : Parse Tree := do
  let span ← currentSpan
  if ← typed then note span .withStatement
  noteInModule span .withInStrict
  advance
  let subject ← parenthesized g
  let body ← within ({ · with inFunction := true }) g.statement
  return .stmt .with (← spanFrom span.lo) [subject, body]

def returnStatement (g : Grammar) : Parse Tree := do
  let start ← here
  advance
  let arg ← if ← atSemicolon then pure .absent else withIn g.expr
  expectSemicolon
  let span ← spanFrom start
  if !(← context).inFunction then note span .returnOutside
  return .stmt .return span [arg]

def throwStatement (g : Grammar) : Parse Tree := do
  let start ← here
  advance
  if ← lineBreak then fail .lineBreakAfterThrow
  let arg ← withIn g.expr
  expectSemicolon
  return .stmt .throw (← spanFrom start) [arg]

/-- A statement that leaves a loop, or a block with a label, or goes on with the next round. -/
def jumpStatement : Parse Tree := do
  let start ← here
  let isBreak ← atKeyword .break
  advance
  let label ← if ← acceptSemicolon then pure Tree.absent else do
      let (n, span) ← reference
      expectSemicolon
      pure (Tree.ofPart (.name n) span [])
  let span ← spanFrom start
  let c ← context
  let labels := (← get).labels
  let known := match label.kind with
    | .part (.name n) => labels.contains n
    | _ => true
  if isBreak then
    if !known then note span .noSuchLabel
    else if !c.breakAllowed then note span .breakOutside
  else if !c.continueAllowed then note span .continueOutside
  else if !known then note span .jumpTarget
  return .stmt (if isBreak then .break else .continue) span [label]

/-- A statement after its label and the colon. -/
def labelled (g : Grammar) (label : Text) (span : Span) : Parse Tree :=
  within ({ · with breakAllowed := true, allowUsing := false }) do
    let twice := (← get).labels.contains label
    modify fun s => { s with labels := label :: s.labels }
    let body ← if ← atKeyword .function then do
        let f ← functionDecl g none
        if (← context).strict then note f.span .labelledFunction
        match (f.part 1).kind with
        | .part (.function async generator) =>
          if async || generator then note f.span .labelledAsync
        | _ => pure ()
        pure f
      else g.statement
    if twice then note span (.duplicateLabel label)
    modify fun s => { s with labels := s.labels.erase label }
    let name := Tree.ofPart (.name label) span []
    return .stmt .labelled (← spanFrom span.lo) [name, body]

end Parse
end InlineTemplates.Script
