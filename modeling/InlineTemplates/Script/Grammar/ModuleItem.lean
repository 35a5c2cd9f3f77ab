import InlineTemplates.Script.Grammar.Declaration

/-! # Imports and exports -/

namespace InlineTemplates.Script.Parse

/-! ## What imports and exports share -/

/-- The specifier of another module. -/
def specifier : Parse Tree := do
  let _ ← someToken
  match ← stringPart? with
  | some s => return s
  | none => unexpected "a string literal"

/-- What is asked of an imported module, where there are types. -/
def importAttributes (g : Grammar) : Parse Tree := do
  if !(← typed) || (← lineBreak) then return .absent
  if ← acceptName "assert" <||> acceptKeyword .with then objectLiteral g else return .absent

/-- The module that an export takes its names from. -/
def fromClause (g : Grammar) : Parse (Tree × Tree) := do
  expectName "from"
  let src ← specifier
  let attributes ← importAttributes g
  expectSemicolon
  return (src, attributes)

/-- What a word `type` before a name in an import or an export means. -/
structure TypeWord where
  /-- The name that is taken from the other side. -/
  taken : Tree
  /-- The name on this side, when it was read with the words. -/
  alias? : Option Tree := none
  typeOnly : Bool
  /-- Where the construct ends, when it was read to its end. -/
  stop : Option Nat := none

/-- Reads on after the name `type`: it may be a modifier, the name itself, or either before `as`.
`name` reads the name on this side. -/
def afterTypeWord (typeName : Tree) (name : Parse Tree) (inTypeOnly : Parse Unit) :
    Parse TypeWord := do
  let isAs : Tree → Bool
    | .node (.part (.name n)) _ _ => n == text "as"
    | _ => false
  let second ← anyName
  if !isAs second then
    inTypeOnly
    return { taken := second, typeOnly := true }
  if !(← atWord) then
    inTypeOnly
    return { taken := second, typeOnly := true, stop := some (← lastEnd) }
  let third ← name
  if !isAs third then
    return { taken := typeName, alias? := some third, typeOnly := false,
             stop := some typeName.span.hi }
  if ← atWord then
    let last ← name
    inTypeOnly
    return { taken := second, alias? := some last, typeOnly := true,
             stop := some typeName.span.hi }
  return { taken := typeName, alias? := some third, typeOnly := false,
           stop := some third.span.hi }

/-- Whether the word `type` was read and another word follows it, where there are types. -/
def isTypeWord (t : Tree) : Parse Bool := do
  match t.kind with
  | .part (.name n) => if n == text "type" then typed <&&> atWord else return false
  | _ => return false

/-- Names in braces, separated by commas. -/
def namesInBraces (one : Parse Tree) : Parse (List Tree) := do
  expect .braceOpen
  let names ← iterate ([] : List Tree) fun acc => do
    if (← atEnd) || (← at? .braceClose) then return .inr acc.reverse
    let name ← one
    if !(← at? .braceClose) then expect .comma
    return .inl (name :: acc)
  expect .braceClose
  return names

/-! ## Imports -/

/-- A name that an import declares. -/
def importedName : Parse Tree :=
  within ({ · with inAsync := false, inGenerator := false }) (declaredPlainName false)

/-- A name in the braces of an import. -/
def importSpecifier (typeOnly : Bool) : Parse Tree := do
  let start ← here
  let first ← exportName
  if let .part (.string v _) := first.kind then
    if ← acceptName "as" then
      let l ← declaredPlainName false
      return .ofPart (.importNamed false) ⟨start, l.span.hi⟩ [l, first]
    failAt first.span (.stringImportBinding v)
  let w ← if ← isTypeWord first then
      afterTypeWord first (declaredPlainName false)
        (if typeOnly then note first.span .typeModifierTwice else pure ())
    else pure { taken := first, typeOnly := false }
  match w.alias?, w.stop with
  | some l, some stop => return .ofPart (.importNamed w.typeOnly) ⟨start, stop⟩ [l, w.taken]
  | _, some stop =>
    return .ofPart (.importNamed w.typeOnly) ⟨start, stop⟩ [w.taken, .absent]
  | _, none =>
    if ← acceptName "as" then
      let l ← declaredPlainName false
      return .ofPart (.importNamed w.typeOnly) ⟨start, l.span.hi⟩ [l, w.taken]
    return .ofPart (.importNamed w.typeOnly) (← spanFrom start) [w.taken, .absent]

/-- Whether the call of `require` follows. -/
def atRequire : Parse Bool := atName "require" <&&> nextAt .parenOpen

/-- What an import with an equals sign refers to. -/
def moduleReference : Parse Tree := do
  if !(← atRequire) then return ← entityName false
  let start ← here
  advance
  expect .parenOpen
  let s ← specifier
  expect .parenClose
  return .ofPart .externalModule (← spanFrom start) [s]

/-- An import with an equals sign after its name. -/
def importEqualsAfter (start : Nat) (name : Tree) (exported typeOnly : Bool) : Parse Tree := do
  expect (.assign .plain)
  let r ← moduleReference
  expectSemicolon
  return .item (.importEquals exported typeOnly) (← spanFrom start) [name, r]

/-- What stands before the braces or the star of an import: a default name, the word `type` or the
words for its phase. -/
structure ImportHead where
  name? : Option Tree := none
  typeOnly : Bool := false
  phase : ImportPhase := .evaluation
  /-- The name is followed by an equals sign. -/
  equals : Bool := false

def isNamed (n : String) (t : Tree) : Bool := t.kind == .part (.name (text n))

def importHead : Parse ImportHead := do
  if !(← atFreeWord) then return {}
  let first ← importedName
  let listed := (← at? (.op .mul)) || (← at? .braceOpen)
  let (name, typeOnly) ← if (← typed) && isNamed "type" first then do
      if listed then return { typeOnly := true }
      if !(← atFreeWord) then pure (first, false)
      else if ← notM (atName "from") <||> nextIs (isName "from") then pure (← importedName, true)
      else if ← nextAt (.assign .plain) then pure (← anyName, true)
      else pure (first, false)
    else pure (first, false)
  if ← typed <&&> at? (.assign .plain) then
    return { name? := some name, typeOnly := typeOnly, equals := true }
  let phase? : Option ImportPhase :=
    if isNamed "source" name then some .source
    else if isNamed "defer" name then some .defer
    else none
  let (name, phase) ← match phase? with
    | none => pure (name, ImportPhase.evaluation)
    | some phase => do
      if (← at? (.op .mul)) || (← at? .braceOpen) then
        return { typeOnly := typeOnly, phase := phase }
      if ← (atFreeWord <&&> notM (atName "from")) <||> nextIs (isName "from") then
        pure (← importedName, phase)
      else pure (name, .evaluation)
  if !(← atName "from") then expect .comma
  return { name? := some name, typeOnly := typeOnly, phase := phase }

/-- The braces or the star of an import, where it has them. -/
def importList (typeOnly : Bool) : Parse (List Tree) := do
  let start ← here
  if ← accept (.op .mul) then
    expectName "as"
    let l ← importedName
    return [.ofPart .importNamespace (← spanFrom start) [l]]
  if ← at? .braceOpen then return ← namesInBraces (importSpecifier typeOnly)
  return []

/-- An import declaration after the word `import`, which stands at `start`. -/
def importAfter (g : Grammar) (start : Nat) : Parse Tree := do
  if let some src ← stringPart? then
    let attributes ← importAttributes g
    expectSemicolon
    return .item (.import false .evaluation) (← spanFrom start) [.list [], src, attributes]
  let head ← importHead
  match head.name?, head.equals with
  | some name, true => importEqualsAfter start name false head.typeOnly
  | name?, _ =>
    let default := name?.toList.map fun n => Tree.ofPart .importDefault n.span [n]
    let listed ← importList head.typeOnly
    let (src, attributes) ← fromClause g
    return .item (.import head.typeOnly head.phase) (← spanFrom start)
      [.list (default ++ listed), src, attributes]

def importItem (g : Grammar) : Parse Tree := do
  let start ← here
  if ← nextIs fun t => isMark .parenOpen t || isMark .dot t then
    let e ← g.expr
    let _ ← acceptSemicolon
    return .stmt .expr (← spanFrom start) [e]
  advance
  importAfter g start

/-! ## Exports -/

/-- A name in the braces of an export. -/
def exportSpecifier (typeOnly : Bool) : Parse Tree := do
  let start ← here
  let first ← exportName
  let w ← if ← isTypeWord first then
      afterTypeWord first anyName
        (if typeOnly then note first.span .typeModifierTwiceExport else pure ())
    else pure { taken := first, typeOnly := false }
  match w.alias?, w.stop with
  | some a, some stop => return .ofPart (.exportName w.typeOnly) ⟨start, stop⟩ [w.taken, a]
  | _, some stop => return .ofPart (.exportName w.typeOnly) ⟨start, stop⟩ [w.taken, .absent]
  | _, none =>
    let exported ← if ← acceptName "as" then exportName else pure .absent
    return .ofPart (.exportName w.typeOnly) (← spanFrom start) [w.taken, exported]

/-- Whether no variable can have the name, so that an export of it needs the module that it comes
from. -/
def isNeverDeclared (n : Text) : Bool :=
  match Keyword.ofText? n with
  | some .let | some .await | some .yield => false
  | some _ => true
  | none => n == text "enum" || n == text "package"

/-- Notes exported names that need the module that they come from. -/
def checkOwnExports (specifiers : List Tree) : Parse Unit := do
  for s in specifiers do
    let inner := s.part 0
    match inner.kind with
    | .part (.name n) => if isNeverDeclared n then note inner.span (.exportWithoutFrom n)
    | .part (.string _ _) => note inner.span .stringExportBinding
    | _ => pure ()

/-- An export of a list of names. -/
def exportList (g : Grammar) (start : Nat) (typeOnly : Bool) : Parse Tree := do
  let specifiers ← namesInBraces (exportSpecifier typeOnly)
  let (src, attributes) ← if ← atName "from" then fromClause g else do
      checkOwnExports specifiers
      let _ ← acceptSemicolon
      pure (.absent, .absent)
  return .item (.exportNamed typeOnly) (← spanFrom start) [.list specifiers, src, attributes]

/-- An export of all names of another module, as names of their own or as one. -/
def exportStar (g : Grammar) (start specifierStart : Nat) (typeOnly : Bool) : Parse Tree := do
  let named ← nextIs (isName "as")
  advance
  if !named then
    let (src, attributes) ← fromClause g
    return .item (.exportAll typeOnly) (← spanFrom start) [src, attributes]
  expectName "as"
  let name ← exportName
  let specifier := Tree.ofPart .exportNamespaceName (← spanFrom specifierStart) [name]
  let (src, attributes) ← fromClause g
  return .item (.exportNamed typeOnly) (← spanFrom start) [.list [specifier], src, attributes]

/-- The class of a default export. -/
def defaultClass (g : Grammar) (start : Nat) (abstract : Bool) : Parse Tree := do
  let classStart ← here
  if abstract then
    advance
    let _ ← someToken
  let (name, tree) ← classFrom g classStart false abstract
  return .item .exportDefaultDecl (← spanFrom start) [.expr .classExpr tree.span [name, tree]]

/-- The function of a default export. -/
def defaultFunction (g : Grammar) (start : Nat) (asyncStart : Option Nat) : Parse Tree := do
  let (name, f) ← functionFrom g .exported asyncStart
  return .item .exportDefaultDecl (← spanFrom start) [.expr .function f.span [name, f]]

/-- A default export after the word `default`. -/
def exportDefault (g : Grammar) (start : Nat) : Parse Tree := do
  if ← typed then
    if ← atName "abstract" <&&> nextIs (isKeyword .classWord) <&&> notM lineBreakAfter then
      return ← defaultClass g start true
    if ← atName "abstract" <&&> nextIs (isName "interface") then
      note (← currentSpan) .abstractPlace
      advance
    if ← atName "interface" then
      let interfaceStart ← here
      advance
      let d ← interfaceFrom g interfaceStart
      return .item .exportDefaultDecl (← spanFrom start) [d]
  if ← atKeyword .classWord then return ← defaultClass g start false
  if ← atAsyncFunction then
    let asyncStart ← here
    advance
    return ← defaultFunction g start (some asyncStart)
  if ← atKeyword .function then return ← defaultFunction g start none
  let e ← withIn g.assignment
  expectSemicolon
  return .item .exportDefaultExpr (← spanFrom start) [e]

/-- The forms of an export that only modules with types have. -/
def typedExport? (g : Grammar) (start : Nat) : Parse (Option Tree) := do
  if !(← typed) then return none
  let declStart ← here
  if ← acceptName "declare" then
    if let some d ← ambientDeclaration? g declStart then
      return some (.item .exportDecl (← spanFrom start) [asAmbient d])
  match ← wordHere? with
  | some w =>
    let wordStart ← here
    if let some d ← attempt (declarationAfter? g wordStart w true) then
      return some (.item .exportDecl (← spanFrom start) [d])
  | none => pure ()
  if ← acceptKeyword .import then
    let typeOnly ← atName "type" <&&> nextAtFreeWord
    if typeOnly then advance
    return some (← importEqualsAfter start (← anyName) true typeOnly)
  if ← accept (.assign .plain) then
    let e ← g.expr
    expectSemicolon
    return some (.item .exportAssign (← spanFrom start) [e])
  if ← acceptName "as" then
    expectName "namespace"
    let (n, span) ← nameWord false false
    expectSemicolon
    return some (.item .exportNamespace (← spanFrom start) [.ofPart (.name n) span []])
  return none

/-- The declaration that an export exports, where there is one. -/
def exportedDeclaration? (g : Grammar) : Parse (Option Tree) := do
  let start ← here
  if ← atKeyword .classWord then return some (← classDecl g start start false)
  if ← atAsyncFunction then
    advance
    return some (← functionDecl g (some start))
  if ← atKeyword .function then return some (← functionDecl g none)
  if ← typed <&&> atKeyword .const <&&> nextIs (isName "enum") then
    advance
    let _ ← someToken
    advance
    return some (← enumFrom g start true)
  if ← atKeyword .var <||> atKeyword .const <||> (atKeyword .let <&&> nextIs followsLet) then
    return some (← variableDeclaration g false)
  return none

def exportItem (g : Grammar) : Parse Tree := do
  let start ← here
  advance
  let _ ← someToken
  if let some t ← typedExport? g start then return t
  let specifierStart ← here
  let typeOnly ← typed <&&> acceptName "type"
  if !typeOnly then
    if ← acceptKeyword .default then return ← exportDefault g start
    if let some d ← exportedDeclaration? g then
      return .item .exportDecl (← spanFrom start) [d]
  if ← at? (.op .mul) then exportStar g start specifierStart typeOnly
  else exportList g start typeOnly

/-- An item of a module or of a namespace. -/
def moduleItemOf (g : Grammar) : Parse Tree := do
  if ← atKeyword .import then importItem g
  else if ← atKeyword .export then exportItem g
  else if ← atKeyword .await then asStatement do awaitStatement g (← here)
  else statementOf g true

end InlineTemplates.Script.Parse
