import InlineTemplates.Script.Grammar.Function

/-! # Arrays, objects, templates, regular expressions and arguments -/

namespace InlineTemplates.Script.Parse

/-- Keeps the comma before the end of a list whose bracket stands at `start`. -/
def rememberComma (start : Nat) (comma : Span) : Parse Unit :=
  modify fun s => { s with trailingCommas := (start, comma) :: s.trailingCommas }

/-! ## Elements and arguments -/

/-- An expression, or dots and an expression. -/
def spreadOrExpr (g : Grammar) : Parse Tree := do
  let start ← here
  if ← accept .ellipsis then
    let e ← withIn g.assignment
    return .ofPart .spread (← spanFrom start) [e]
  g.assignment

def arrayLiteral (g : Grammar) : Parse Tree :=
  withoutColon do
    let start ← here
    expect .bracketOpen
    let elements ← iterate ([] : List Tree) fun acc => do
      if ← at? .bracketClose then return .inr acc.reverse
      if ← accept .comma then return .inl (Tree.absent :: acc)
      let e ← withIn (spreadOrExpr g)
      if !(← at? .bracketClose) then
        expect .comma
        if ← at? .bracketClose then rememberComma start (← previous)
      return .inl (e :: acc)
    expect .bracketClose
    return .expr .array (← spanFrom start) elements

/-- The arguments of a call, with their parentheses. -/
def arguments (g : Grammar) (ofImport : Bool) : Parse (List Tree) :=
  withoutColon do
    let start ← here
    expect .parenOpen
    let args ← iterate ([] : List Tree) fun acc => do
      if (← atEnd) || (← at? .parenClose) then return .inr acc.reverse
      if !acc.isEmpty then
        expect .comma
        if ← at? .parenClose then
          if ofImport && !(← typed) then failAt (← spanFrom start) .trailingCommaInImport
          return .inr acc.reverse
      return .inl ((← withIn (spreadOrExpr g)) :: acc)
    expect .parenClose
    return args

/-! ## Objects -/

/-- Whether the current token may follow the name of a property. -/
def atPropertyTail (key : Tree) : Parse Bool := do
  match ← token? with
  | some (.mark m) =>
    if m == .braceClose then
      return match key.kind with
        | .part (.name _) => true
        | _ => false
    return [Mark.parenOpen, .bracketOpen, .colon, .comma, .question, .assign .plain, .op .mul,
      .op .lt].contains m
  | some (.string _ _) | some (.number _ _) => return true
  | t => return isWord t

/-- An accessor or an async method, after the word `word`. -/
def wordedProperty (g : Grammar) (start : Nat) (word : Text) : Parse Tree := do
  let generator ← if word == text "async" then accept (.op .mul) else pure false
  let key ← propertyName g
  if word == text "async" then
    let f ← methodRest g start (parameters g) true generator
    return .prop .method (← spanFrom start) [key, f]
  if word == text "get" then
    let f ← methodRest g start (getterParameters g key.span) false false
    return .prop .getter (← spanFrom start) [key, f.part 3, f.part 1]
  let f ← methodRest g start (setterParameters g key.span) false false
  let pats := (f.items 0).map (·.part 0)
  let (this, param) := match pats with
    | first :: second :: _ => (first, some second)
    | [one] => (Tree.absent, some one)
    | [] => (Tree.absent, none)
  let param ← match param with
    | some p => pure p
    | none => do
      note key.span .setterParameters
      pure (Tree.pat .invalid .nowhere [])
  return .prop .setter (← spanFrom start) [key, this, param, f.part 1]

/-- A property of an object. -/
def objectProperty (g : Grammar) : Parse Tree := do
  let start ← here
  if ← accept .ellipsis then
    let e ← withIn g.assignment
    return .ofPart .spread (← spanFrom start) [e]
  if ← accept (.op .mul) then
    let key ← propertyName g
    let f ← methodRest g start (parameters g) false true
    return .prop .method (← spanFrom start) [key, f]
  let modified ← anyModifier
  let modifierSpan ← previous
  let key ← propertyName g
  if (← typed) && !(← atPropertyTail key) then
    note (← currentSpan) .expectedSemicolon
    return .prop .keyValue (← spanFrom start) [key, .expr .invalid (← spanFrom start) []]
  if ← accept .colon then
    let value ← withIn g.assignment
    return .prop .keyValue (← spanFrom start) [key, value]
  if ((← typed) && (← at? (.op .lt))) || (← at? .parenOpen) then
    let f ← methodRest g start (parameters g) false false
    return .prop .method (← spanFrom start) [key, f]
  match key with
  | .node (.part (.name n)) _ _ =>
    if ← accept .question then note (← previous) .optionalMember
    let ended := (← at? (.assign .plain)) || (← at? .comma) || (← at? .braceClose)
    if ended then
      if ← accept (.assign .plain) then
        let value ← withIn g.assignment
        return .prop .assign (← spanFrom start) [key, value]
      return key
    if n == text "get" || n == text "set" || n == text "async" then
      if modified then note modifierSpan .asyncModifier
      wordedProperty g start n
    else
      let words := if ← typed then "an identifier, public, protected, private, readonly, <."
        else "an identifier"
      let mark := if ← typed then "=, " else "= or "
      unexpected ("... , *,  (, [, :, , ?, " ++ mark ++ words)
  | _ => unexpected "identifier"

def objectLiteral (g : Grammar) : Parse Tree :=
  withoutColon do
    let start ← here
    let (props, comma) ← braced (objectProperty g)
    if let some c := comma then rememberComma start c
    return .expr .object (← spanFrom start) props

/-! ## Templates -/

/-- A template; one with a tag may have escapes that cannot be read. -/
def templateLiteral (g : Grammar) (tagged : Bool) : Parse Tree := do
  let start ← here
  expect .backquote
  let (exprs, quasis) ← templateParts (withIn g.expr) tagged
  expect .backquote
  return .expr .template (← spanFrom start) [.list exprs, .list quasis]

/-- A template after its tag. -/
def taggedTemplate (g : Grammar) (tag typeArgs : Tree) : Parse Tree := do
  let template ← templateLiteral g true
  let span ← spanFrom tag.span.lo
  match tag.kind with
  | .expr (.chain _) => note span .templateInChain
  | _ => pure ()
  return .expr .tagged span [tag, typeArgs, template]

/-! ## Regular expressions -/

/-- Notes flags that do not exist or that stand twice. -/
def checkFlags (span : Span) (flags : Text) : Parse Unit := do
  if flags.any fun f => !(text "dgimsuvy").contains f then note span .unknownRegexFlag
  let known := flags.filter (text "dgimsuvy").contains
  if let some f := known.find? fun f => known.count f > 1 then note span (.duplicateRegexFlag f)

/-- Where the lexer reads a regular expression next, if anywhere. -/
def setRegex (place : Option (Nat × Text)) : Parse Unit :=
  modify fun s => { s with lexer := { s.lexer with regexFrom := place } }

/-- A regular expression, where an operator that starts with a slash was read. -/
def regexLiteral? : Parse (Option Tree) := do
  let slash : Text ← match ← token? with
    | some (.mark (.op .div)) => pure ['/']
    | some (.mark (.assign (.with .div))) => pure ['/', '=']
    | _ => return none
  let start ← here
  advance
  setRegex (some (start, slash ++ (← get).lexer.rest))
  match ← token? with
  | some (.regex body flags) =>
    setRegex none
    advance
    let span ← spanFrom start
    checkFlags span flags
    return some (.expr (.regex body flags) span [])
  | _ => return none

end InlineTemplates.Script.Parse
