import InlineTemplates.Script.Grammar.Basic

/-! # Names -/

namespace InlineTemplates.Script

/-- The names that strict code may not declare or assign. -/
def isEvalOrArguments (n : Text) : Bool := n == text "eval" || n == text "arguments"

namespace Parse

/-- Any word, reserved or not, with its span. -/
def anyWord : Parse (Text × Span) := do
  match ← someToken with
  | .name n _ =>
    advance
    return (n, ← previous)
  | .keyword k =>
    advance
    return (text k.word, ← previous)
  | .jsxName n =>
    if (← context).inType then
      advance
      return (n, ← previous)
    fail .expectedName
  | _ => fail .expectedName

/-- A name of a property, a label or an export: any word. -/
def anyName : Parse Tree := do
  let (n, span) ← anyWord
  return .ofPart (.name n) span []

/-- The words that strict code reserves. -/
def strictReserved : List Text :=
  ["yield", "let", "static", "implements", "interface", "package", "private", "protected",
   "public"].map text

/-- A word in the place of a name. Whether `yield` and `await` may be names depends on who asks. -/
def nameWord (allowYield allowAwait : Bool) : Parse (Text × Span) := do
  let c ← context
  let t ← someToken
  if !isWord (some t) then fail .expectedName
  advance
  let span ← previous
  match t with
  | .name n plain =>
    if n == text "enum" && !plain then note span (.nameInStrict n)
    else if strictReserved.contains n && !plain then noteInModule span (.nameInStrict n)
    if n == text "arguments" && c.inClassField then note span .argumentsInField
    return (n, span)
  | .keyword k =>
    if strictReserved.contains (text k.word) then noteInModule span (.nameInStrict (text k.word))
    match k with
    | .await =>
      if c.ambient then return (text k.word, span)
      if c.inStaticBlock then failAt span .expectedName
      if c.moduleCode || c.inAsync then failAt span .awaitAsName
      if allowAwait then return (text k.word, span)
      failAt span .expectedName
    | .this => if c.dialect.types then return (text k.word, span) else failAt span .expectedName
    | .let => return (text k.word, span)
    | .yield => if allowYield then return (text k.word, span) else failAt span .expectedName
    | _ => failAt span .expectedName
  | _ => failAt span .expectedName

/-- A name that refers to something. -/
def reference : Parse (Text × Span) := do
  let c ← context
  nameWord (!c.inGenerator) (!c.inAsync)

/-- A name that is declared. -/
def declaredWord (reservesLet : Bool) : Parse (Text × Span) := do
  let c ← context
  if reservesLet then
    if ← atKeyword .let then
      unexpected "let is reserved in const, let, class declaration"
  let (n, span) ← nameWord true true
  if isEvalOrArguments n then noteInModule span .evalOrArguments
  if (c.inAsync || c.inStaticBlock) && n == text "await" then note span .expectedName
  if c.inGenerator && n == text "yield" then note span .expectedName
  return (n, span)

/-- A declared name as a pattern without a type. -/
def declaredName (reservesLet : Bool) : Parse Tree := do
  let (n, span) ← declaredWord reservesLet
  return .pat (.name n false) span [.absent]

/-- A declared name that is no pattern: of a function, a class or a type. -/
def declaredPlainName (reservesLet : Bool) : Parse Tree := do
  let (n, span) ← declaredWord reservesLet
  return .ofPart (.name n) span []

/-- A private name after its mark, with its span from the mark on. -/
def privateWord : Parse (Text × Span) := do
  let start ← here
  expect .hash
  let after ← lastEnd
  if (← here) != after then failAt (← spanFrom start) .spaceAfterHash
  let (n, _) ← anyWord
  return (n, ← spanFrom start)

/-- The name after the dot of a member: private or not. -/
def memberName : Parse Tree := do
  if ← at? .hash then
    let (n, span) ← privateWord
    return .ofPart (.privateName n) span []
  anyName

/-- A string that is part of another construct. -/
def stringPart? : Parse (Option Tree) := do
  match ← token? with
  | some (.string v raw) =>
    advance
    return some (.ofPart (.string v (some raw)) (← previous) [])
  | _ => return none

/-- A name of an export: any word or a string. -/
def exportName : Parse Tree := do
  if let some s ← stringPart? then return s
  if ← atWord then anyName else unexpected "identifier or string"

/-- The literal that the current token is, as an expression. -/
def literal? : Parse (Option Tree) := do
  let kind? : Option Token → Option ExprKind
    | some (.keyword .null) => some .null
    | some (.keyword .true) => some (.bool true)
    | some (.keyword .false) => some (.bool false)
    | some (.string v raw) => some (.string v (some raw))
    | some (.number v raw) => some (.number v (some raw))
    | some (.bigInt v raw) => some (.bigInt v (some raw))
    | _ => none
  match kind? (← token?) with
  | some k =>
    advance
    return some (.expr k (← previous) [])
  | none => return none

/-- The name of a property or of a member of a class, with the brackets of a computed one. -/
def propertyName (g : Grammar) : Parse Tree :=
  within ({ · with inPropertyName := true }) do
    match ← someToken with
    | .string v raw =>
      advance
      return .ofPart (.string v (some raw)) (← previous) []
    | .number v raw =>
      advance
      return .ofPart (.number v (some raw)) (← previous) []
    | .bigInt v raw =>
      advance
      return .ofPart (.bigInt v (some raw)) (← previous) []
    | .name _ _ | .keyword _ => anyName
    | .mark .bracketOpen =>
      let start ← here
      advance
      let operand := within ({ · with allowIn := true, colonAhead := false }) g.assignment
      let first ← operand
      let more ← if (← context).dialect.types then
          collect do if ← accept .comma then return some (← operand) else return none
        else pure []
      let inner ← if more.isEmpty then pure first else do
          let span ← spanFrom first.span.lo
          note span .commaInComputed
          pure (Tree.expr .sequence span (first :: more))
      expect .bracketClose
      return .ofPart .computed (← spanFrom start) [inner]
    | _ =>
      unexpected "identifier, string literal, numeric literal or [ for the computed key"

end Parse
end InlineTemplates.Script
