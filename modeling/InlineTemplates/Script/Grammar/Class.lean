import InlineTemplates.Script.Grammar.Chain

/-! # Classes -/

namespace InlineTemplates.Script.Parse

/-- What stands before the name of a member. -/
structure MemberHead where
  start : Nat
  modifiers : Modifiers := {}
  declareSpan : Option Span := none
  staticSpan : Option Span := none
  /-- The last modifier that only typed members have. -/
  modifierSpan : Option Span := none
  accessor : Bool := false

/-! ## Members -/

/-- Whether a method follows its name here. -/
def atMethod : Parse Bool := do
  return (← at? .parenOpen) || ((← typed) && ((← at? (.op .lt)) || (← at? .tagStart)))

/-- Whether a field follows its name here. A field may end at a new line only if `newLine`. -/
def atField (newLine : Bool) : Parse Bool := do
  if (← typed) && ((← at? .bang) || (← at? .colon)) then return true
  if (← at? (.assign .plain)) || (← at? .braceClose) then return true
  if newLine then atSemicolon else at? .semicolon

/-- The name of a member. -/
def memberKeyName (g : Grammar) : Parse Tree := do
  if ← at? .hash then
    let (n, span) ← privateWord
    if n == text "constructor" then note span .privateConstructor
    return .ofPart (.privateName n) span []
  propertyName g

def isPrivateKey (key : Tree) : Bool := match key.kind with
  | .part (.privateName _) => true
  | _ => false

def isConstructorKey (key : Tree) : Bool := match key.kind with
  | .part (.name n) | .part (.string n _) => n == text "constructor"
  | _ => false

/-- A method after its name. -/
def methodMember (g : Grammar) (h : MemberHead) (kind : MethodKind) (key : Tree)
    (params : Parse (List Tree)) (async generator : Bool) : Parse Tree := do
  let m := { h.modifiers with static := h.staticSpan.isSome, readonly := false, declare := false }
  let f ← methodRest g h.start params async generator
  let span ← spanFrom h.start
  if isPrivateKey key then
    if m.accessibility.isSome then note ⟨h.start, key.span.hi⟩ .privateAccess
    return .member (.privateMethod kind m) span [key, f]
  if m.abstract && !(f.part 1).isAbsent then note span .abstractBody
  return .member (.method kind m) span [key, f]

/-- A field after its name. -/
def fieldMember (g : Grammar) (h : MemberHead) (key : Tree) : Parse Tree := do
  if isConstructorKey key then failAt key.span .fieldNamedConstructor
  if isPrivateKey key then
    if h.modifiers.declare then note key.span (.privateModifier "declare")
    if h.modifiers.abstract then note key.span (.privateModifier "abstract")
  let definite ← if h.modifiers.optional then pure false else typed <&&> accept .bang
  let m := { h.modifiers with definite := definite }
  let type ← annotatedType? g
  within ({ · with allowIn := true, inClassField := true }) do
    let value ← if ← accept (.assign .plain) then g.assignment else pure .absent
    if !(← acceptSemicolon) then note (← currentSpan) .expectedSemicolon
    let span ← spanFrom h.start
    if h.accessor then return .member (.accessor m) span [key, value, type]
    if isPrivateKey key then
      if m.accessibility.isSome then note ⟨h.start, key.span.hi⟩ .privateAccess
      return .member (.privateProperty m) span [key, value, type]
    if m.abstract && !value.isAbsent then note span .abstractInitializer
    return .member (.property m) span [key, value, type]

/-- Type parameters of a constructor, which it may not have. -/
def constructorTypeParams (g : Grammar) : Parse Unit := do
  if !(← typed) || !(← at? (.op .lt)) then return ()
  let start ← here
  if ← nextAt (.op .gt) then
    advance
    let second ← here
    advance
    note (← spanFrom start) .emptyTypeParams
    note (← spanFrom second) .constructorTypeParams
  else
    let params ← typeParams g false true
    params.parts.forM fun p => note p.span .constructorTypeParams

/-- Notes what parameters of a constructor without a body may not have. -/
def checkBodilessConstructor (params : List Tree) : Parse Unit := do
  for p in params do
    match p.kind with
    | .member (.parameterProperty _) => note p.span .parameterProperty
    | _ => pure ()
  if ← typed then
    for p in params do
      if (p.part 0).kind == .pat .default then note (p.part 0).span .parameterInitializer

/-- A constructor after its name. -/
def constructorMember (g : Grammar) (h : MemberHead) (key : Tree) : Parse Tree := do
  if (← typed) && h.modifiers.override then
    note (← spanFrom h.start) (.constructorModifier "override")
  constructorTypeParams g
  expect .parenOpen
  let params ← constructorParameters g
  expect .parenClose
  if (← typed) && (← at? .colon) then
    let t ← annotatedType g
    note (t.part 0).span .constructorType
  let simple := params.all fun p => p.kind == .part .param && areSimple [p]
  let body ← functionBody g false false simple
  if body.isAbsent then checkBodilessConstructor params
  if let some s := h.staticSpan then note s (.constructorModifier "static")
  if let some s := h.modifierSpan then
    if h.modifiers.abstract then note s .abstractPlace
  let m : Modifiers :=
    { accessibility := h.modifiers.accessibility, optional := h.modifiers.optional }
  return .member (.constructor m) (← spanFrom h.start) [key, .list params, body]

/-- A block that runs when the class is made. -/
def staticBlock (g : Grammar) (h : MemberHead) : Parse Tree := do
  let body ← within
    (fun c => { c with inStaticBlock := true, inClassField := true, allowUsing := true })
    (block g false)
  return .member .staticBlock (← spanFrom h.start) [body]

/-- A getter or setter, or a member with the name that was read. -/
def wordedMember (g : Grammar) (h : MemberHead) (word : Text) (key : Tree) : Parse Tree := do
  let keySpan := key.span
  let key ← memberKeyName g
  if h.modifiers.readonly then note keySpan .readonlyAccessor
  if isConstructorKey key then note keySpan .constructorAccessor
  if word == text "get" then
    methodMember g h .getter key (getterParameters g keySpan) false false
  else methodMember g h .setter key (setterParameters g keySpan) false false

/-- An async method after its first word. -/
def asyncMember (g : Grammar) (h : MemberHead) : Parse Tree := do
  let override := (← modifier? ["override"] false).isSome
  if override then note (← previous) (.memberModifierOrder "override" "async")
  let generator ← accept (.op .mul)
  let key ← memberKeyName g
  if isConstructorKey key then failAt key.span .asyncConstructor
  if h.modifiers.readonly then failAt (← spanFrom h.start) .readonlyMethod
  let optional ← if h.modifiers.optional then pure true else typed <&&> accept .question
  let m := { h.modifiers with override := h.modifiers.override || override, optional := optional }
  methodMember g { h with modifiers := m } .method key (parameters g) true generator

/-- Takes the modifiers that only typed members have. -/
def memberModifiers (h : MemberHead) : Parse MemberHead :=
  iterate h fun h => do
    let words := ["abstract", "readonly", "override", "static", "in", "out"]
    match ← modifier? words true with
    | none => return .inr h
    | some w =>
      let span ← previous
      let m := h.modifiers
      let h := { h with modifierSpan := some span }
      if w == "abstract" then
        if m.abstract then note span (.memberModifierTwice w)
        else if m.override then note span (.memberModifierOrder w "override")
        return .inl { h with modifiers := { m with abstract := true } }
      if w == "override" then
        if m.override then note span (.memberModifierTwice w)
        else if m.readonly then note span (.memberModifierOrder w "readonly")
        else if m.declare then note span (.memberModifierClash w "declare")
        else if !(← context).hasSuperClass then note span .overrideWithoutExtends
        return .inl { h with modifiers := { m with override := true } }
      if w == "readonly" then
        if m.readonly then note span (.memberModifierTwice w)
        return .inl { h with modifiers := { m with readonly := true } }
      if w == "static" then
        if m.override then note span (.memberModifierOrder w "override")
        return .inl { h with modifiers := { m with static := true } }
      note span (.variancePosition w)
      return .inl h

/-- A member after its name was read. -/
def memberAfterName (g : Grammar) (h : MemberHead) (key : Tree) : Parse Tree := do
  if ← atMethod then
    if let some s := h.declareSpan then note s .declareMember
    if h.modifiers.readonly then failAt (← spanFrom h.start) .readonlyMethod
    if isConstructorKey key then return ← constructorMember g h key
    return ← methodMember g h .method key (parameters g) false false
  let nextLineGenerator := (← lineBreak) && (← at? (.op .mul))
  let word? : Option Text := match key.kind with
    | .part (.name n) => some n
    | _ => none
  let accessor := word? == some (text "get") || word? == some (text "set")
  let accessor ← if accessor && !nextLineGenerator then notM (atField false) else pure false
  if !accessor then
    if ← atField true then return ← fieldMember g h key
  match word? with
  | some w =>
    if w == text "async" && !(← lineBreak) then return ← asyncMember g h
    if accessor then return ← wordedMember g h w key
    unexpected "* for generator, private key, identifier or async"
  | none => unexpected "* for generator, private key, identifier or async"

/-- A member whose name is the modifier `word` that was just read, if it is one. -/
def modifierAsName? (g : Grammar) (h : MemberHead) (word : String) (newLine : Bool) :
    Parse (Option Tree) := do
  let key := Tree.ofPart (.name (text word)) (← previous) []
  let optionalMark : Parse MemberHead := do
    let optional ← typed <&&> accept .question
    return { h with modifiers := { h.modifiers with optional := optional } }
  if ← atMethod then
    let h ← optionalMark
    return some (← methodMember g h .method key (parameters g) false false)
  if (← atField newLine) || ((← typed) && (← at? .question)) then
    let h ← optionalMark
    return some (← fieldMember g h key)
  return none

/-- Takes a word that is a modifier unless it is the member's name. -/
def acceptTyped (word : String) : Parse Bool := typed <&&> acceptName word

/-- The block after the word `static`, where one stands, with notes for the words before it that no
block may have. -/
def staticBlock? (g : Grammar) (h : MemberHead) : Parse (Option Tree) := do
  if h.staticSpan.isSome && (← at? .braceOpen) then
    if let some s := h.declareSpan then note s .modifiersHere
    if h.modifiers.accessibility.isSome then note (← currentSpan) .modifiersHere
    return some (← staticBlock g h)
  if ← atName "static" <&&> nextAt .braceOpen then
    if let some s := h.modifierSpan then note s .modifiersHere
    if let some s := h.staticSpan then note s .modifiersHere
    advance
    return some (← staticBlock g h)
  return none

/-- A member after the words that may stand before all others. -/
def memberRest (g : Grammar) (h : MemberHead) : Parse Tree := do
  let h ← memberModifiers h
  let accessor ← if h.accessor then pure true else acceptTyped "accessor"
  let h := { h with accessor := accessor }
  if let some t ← staticBlock? g h then return t
  let m := h.modifiers
  if !m.abstract && !m.override && m.accessibility.isNone then
    if let some t ← indexSignature? g h.start (.member (.index m.readonly m.static)) then return t
  if ← accept (.op .mul) then
    let key ← memberKeyName g
    if m.readonly then note (← spanFrom h.start) .readonlyMethod
    if isConstructorKey key then note (← spanFrom h.start) .generatorConstructor
    return ← methodMember g h .method key (parameters g) false true
  let key ← memberKeyName g
  let optional ← typed <&&> accept .question
  memberAfterName g { h with modifiers := { m with optional := optional } } key

/-- A member of a class. -/
def classMember (g : Grammar) : Parse Tree := do
  let start ← here
  let declare ← acceptTyped "declare"
  let access ← accessModifier?
  let declare ← if declare then pure true else acceptTyped "declare"
  let h : MemberHead := { start := start, modifiers := { accessibility := access } }
  if declare then
    if let some t ← modifierAsName? g h "declare" true then return t
  let h ← if declare then do
      pure { h with
        declareSpan := some (← spanFrom start), modifiers := { h.modifiers with declare := true } }
    else pure h
  let static ← acceptName "static"
  let h ← if static then do
      let span ← previous
      if !(← at? .braceOpen) then
        if let some t ← modifierAsName? g h "static" false then return t
      pure { h with staticSpan := some span, modifiers := { h.modifiers with static := true } }
    else pure h
  let accessor ← acceptTyped "accessor"
  if accessor then
    if let some t ← modifierAsName? g h "accessor" true then return t
  memberRest g { h with accessor := accessor }

/-! ## Classes -/

/-- A class or a type with type arguments that another one extends or implements. -/
def heritageElement (g : Grammar) : Parse Tree := do
  let start ← here
  let (n, span) ← anyWord
  let e ← subscripts g (.expr (.name n) span []) true true
  match e.kind with
  | .expr (.name _) | .expr .member | .expr .instantiation => pure ()
  | _ => note (← spanFrom start) .heritageName
  match e with
  | .node (.expr .instantiation) span [e, args] => return .ofPart .exprWithTypeArgs span [e, args]
  | e =>
    let args ← if ← at? (.op .lt) then typeArgs g else pure .absent
    return .ofPart .exprWithTypeArgs (← spanFrom start) [e, args]

def heritageClause (g : Grammar) : Parse (List Tree) :=
  separated (do return (← at? .braceOpen) || (← atName "implements") || (← atKeyword .extends))
    (heritageElement g)

/-- The class that another one extends, and its type arguments. -/
def superClass (g : Grammar) : Parse (Tree × Tree) := do
  match ← g.leftHandSide with
  | .node (.expr .instantiation) _ [e, args] => return (e, args)
  | e =>
    let args ← if (← typed) && (← at? (.op .lt)) then typeArgs g else pure .absent
    return (e, args)

/-- The members of a class. -/
def classBody (g : Grammar) : Parse (List Tree) := do
  let found ← iterate (([], false) : List Tree × Bool) fun (acc, constructed) => do
    if (← atEnd) || (← at? .braceClose) then return .inr acc.reverse
    if ← accept .semicolon then return .inl (.member .empty (← previous) [] :: acc, constructed)
    let m ← within ({ · with allowSuper := true }) (classMember g)
    let isConstructor := match m.kind with
      | .member (.constructor _) => !(m.part 2).isAbsent
      | _ => false
    if (← context).ambient || !isConstructor then return .inl (m :: acc, constructed)
    if constructed then note m.span .constructorTwice
    return .inl (m :: acc, true)
  return found

/-- What a class extends. Clauses that stand twice or in the wrong place are noted. -/
def classHeritage (g : Grammar) : Parse ((Tree × Tree) × List Tree) := do
  let parent ← if ← acceptKeyword .extends then do
      let s ← superClass g
      if ← typed <&&> accept .comma then
        (← heritageClause g).forM fun e => note e.span .extendsMany
      pure (some s)
    else pure none
  if ← acceptKeyword .extends then
    note (← previous) .extendsTwice
    let _ ← superClass g
  let implemented ← if ← acceptTyped "implements" then heritageClause g else pure []
  if ← acceptTyped "implements" then
    note (← previous) .implementsTwice
    let _ ← heritageClause g
  let late ← if ← typed <&&> acceptKeyword .extends then do
      note (← previous) .extendsAfterImplements
      pure (some (← superClass g))
    else pure none
  return ((parent <|> late).getD (.absent, .absent), implemented)

/-- The names of types that no class and no interface may take. -/
def typeNames : List Text :=
  ["string", "null", "number", "object", "any", "unknown", "boolean", "bigint", "symbol", "void",
    "never", "intrinsic"].map text

/-- The name and the rest of a class from the word `class` on. -/
def classFrom (g : Grammar) (start : Nat) (named abstract : Bool) : Parse (Tree × Tree) := do
  let (name, tree) ← within ({ · with strict := true, inClass := true }) do
    expectKeyword .classWord
    let name ← if named || (← atFreeWord) || ((← typed) && (← atKeyword .this)) then
        declaredPlainName true
      else pure .absent
    if ← typed then
      if let .part (.name n) := name.kind then
        if typeNames.contains n then note name.span .className
    let typeParams ← typeParams? g true true
    let ((parent, parentArgs), implemented) ← classHeritage g
    expect .braceOpen
    let body ← within ({ · with hasSuperClass := !parent.isAbsent }) (classBody g)
    if ← atEnd then note (← currentSpan) (.expected Mark.braceClose.symbol (← currentShown))
    else expect .braceClose
    let parts := [.list body, parent, typeParams, parentArgs, .list implemented]
    return (name, Tree.ofPart (.classBody abstract) (← spanFrom start) parts)
  if !abstract then
    for m in tree.items 0 do
      match m.kind with
      | .member (.property mods) | .member (.method _ mods) =>
        if mods.abstract then note m.span .abstractMember
      | _ => pure ()
  return (name, tree)

def classExpr (g : Grammar) : Parse Tree := do
  let start ← here
  let (name, tree) ← classFrom g start false false
  return .expr .classExpr (← spanFrom start) [name, tree]

def classDecl (g : Grammar) (start classStart : Nat) (abstract : Bool) : Parse Tree := do
  let (name, tree) ← classFrom g classStart true abstract
  return .stmt (.classDecl false) (← spanFrom start) [name, tree]

end InlineTemplates.Script.Parse
