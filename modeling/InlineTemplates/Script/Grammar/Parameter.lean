import InlineTemplates.Script.Grammar.Pattern

/-! # Modifiers, type annotations and parameters -/

namespace InlineTemplates.Script.Parse

def typed : Parse Bool := do return (← context).dialect.types

/-- The current token if it is a word that can be a modifier. -/
def modifierWord? : Parse (Option Text) := do
  return match ← token? with
    | some (.name n _) => some n
    | some (.keyword .in) => some (text "in")
    | some (.keyword .const) => some (text "const")
    | _ => none

/-- Whether a modifier can stand before the current token. -/
def atModified : Parse Bool := do
  if ← lineBreak then return false
  return match ← token? with
    | some (.mark m) =>
      m == .bracketOpen || m == .braceOpen || m == .op .mul || m == .ellipsis || m == .hash
    | some (.string _ _) | some (.number _ _) | some (.bigInt _ _) => true
    | t => isWord t

/-- Takes one of the words if it stands there as a modifier. -/
def modifier? (words : List String) (stopAtStaticBlock : Bool) : Parse (Option String) := do
  if !(← typed) then return none
  let some w ← modifierWord? | return none
  let some m := words.find? (text · == w) | return none
  if stopAtStaticBlock && m == "static" then
    if ← nextAt .braceOpen then return none
  attempt do
    advance
    return if ← atModified then some m else none

def accessModifier? : Parse (Option Accessibility) := do
  return (← modifier? ["public", "protected", "private"] false).bind fun w =>
    [Accessibility.everyone, .heirs, .owner].find? (·.word == w)

/-- Takes a modifier that only a constructor's parameter may have, and says whether there is one. -/
def anyModifier : Parse Bool := do
  if !(← typed) then return false
  let some w ← modifierWord? | return false
  let words := ["public", "protected", "private", "readonly"]
  if !words.any (text · == w) then return false
  let next ← next?
  if isWord next || isMark .braceOpen next || isMark .bracketOpen next then
    let _ ← modifier? words false
    return true
  return false

/-! ## Type annotations -/

/-- A colon and a type. -/
def annotatedType (g : Grammar) : Parse Tree :=
  within ({ · with inType := true }) do
    let start ← here
    expect .colon
    let t ← g.type
    return .ofPart .annotatedType (← spanFrom start) [t]

/-- A type annotation where there may be one. -/
def annotatedType? (g : Grammar) : Parse Tree := do
  if (← typed) && (← at? .colon) then annotatedType g else return .absent

/-! ## Parameters -/

/-- The pattern with a type and another span. -/
def withType (t : Tree) (type : Tree) (span : Span) : Tree :=
  match t with
  | .node k _ [_] => .node k span [type]
  | .node k _ [a, _] => .node k span [a, type]
  | t => t

/-- The type of a parameter after its pattern, which started at `start`. -/
def typedPattern (g : Grammar) (start : Nat) (pat : Tree) : Parse Tree := do
  match pat.kind with
  | .pat (.name _ _) => return withType pat (← annotatedType? g) pat.span
  | .pat (.array _) | .pat (.object _) | .pat .rest =>
    let type ← annotatedType? g
    let span ← if type.isAbsent then pure pat.span else spanFrom start
    return withType pat type span
  | .pat .default =>
    let type ← annotatedType? g
    if type.isAbsent then return pat
    let span ← spanFrom start
    note span .typeAfterAssign
    return pat.withSpan span
  | _ => return pat

/-- The pattern marked as optional. -/
def optionalPattern? : Tree → Option Tree
  | .node (.pat (.name n _)) s ps => some (.node (.pat (.name n true)) s ps)
  | .node (.pat (.array _)) s ps => some (.node (.pat (.array true)) s ps)
  | .node (.pat (.object _)) s ps => some (.node (.pat (.object true)) s ps)
  | _ => none

/-- A parameter that is not a rest parameter. -/
def parameterPattern (g : Grammar) : Parse Tree := do
  let start ← here
  let modified ← anyModifier
  let patStart ← here
  let pat ← bindingElement g
  let marked ← if ← typed <&&> accept .question then do
      match optionalPattern? pat with
      | some p => pure (p, true)
      | none =>
        if (← context).ambient then pure (pat, false)
        else failAt (← previous) .optionalPattern
    else pure (pat, false)
  let pat ← if ← typed then typedPattern g patStart marked.1 else pure marked.1
  let pat ← if ← accept (.assign .plain) then do
      if marked.2 then note pat.span .optionalWithInitializer
      let right ← g.assignment
      let span ← spanFrom start
      if (← context).ambient then note span .parameterInitializer
      pure (.pat .default span [pat, right])
    else pure pat
  if modified then note (← spanFrom start) .parameterProperty
  return pat

/-- The parameter after the dots of a rest parameter that start at `start`. -/
def restParameter (g : Grammar) (start : Nat) : Parse Tree := do
  let pat ← g.pattern
  let pat ← if ← accept (.assign .plain) then do
      let right ← g.assignment
      note pat.span .restInitializer
      pure (.pat .default (← spanFrom start) [pat, right])
    else pure pat
  let type ← annotatedType? g
  let span ← spanFrom start
  if ← typed <&&> accept .question then note (← previous) .restOptional
  return .pat .rest span [pat, type]

/-- The parameter after the dots of a rest parameter of a constructor. -/
def constructorRestParameter (g : Grammar) (start : Nat) : Parse Tree := do
  let pat ← g.pattern
  let type ← annotatedType? g
  return .pat .rest (← spanFrom start) [pat, type]

/-- Parameters up to the closing parenthesis: `rest` reads one after its dots, and `single` one that
is no rest parameter. -/
def parameterList (rest single : Nat → Parse Tree) : Parse (List Tree) :=
  iterate (([], none) : List Tree × Option Span) fun (acc, restSpan) => do
    if (← atEnd) || (← at? .parenClose) then return .inr acc.reverse
    if let some span := restSpan then note span .restParameterNotLast
    let start ← here
    let isRest ← accept .ellipsis
    let p ← if isRest then do
        let pat ← rest start
        pure (.ofPart .param (← spanFrom start) [pat])
      else single start
    let restSpan := if isRest then some (p.part 0).span else restSpan
    if !(← at? .parenClose) then
      expect .comma
      if isRest && (← at? .parenClose) then note (← previous) .commaAfterRest
    return .inl (p :: acc, restSpan)

/-- The parameters of a function. -/
def parameters (g : Grammar) : Parse (List Tree) :=
  parameterList (restParameter g) fun start => do
    let pat ← parameterPattern g
    return .ofPart .param (← spanFrom start) [pat]

/-- The parameters of a constructor, which may declare properties. -/
def constructorParameters (g : Grammar) : Parse (List Tree) :=
  parameterList (constructorRestParameter g) fun start => do
    let access ← accessModifier?
    let override := (← modifier? ["override"] false).isSome
    let readonly := (← modifier? ["readonly"] false).isSome
    let pat ← parameterPattern g
    let span ← spanFrom start
    if access.isNone && !override && !readonly then return .ofPart .param span [pat]
    match pat.kind with
    | .pat (.name _ _) | .pat .default =>
      let m : Modifiers := { accessibility := access, override := override, readonly := readonly }
      return .member (.parameterProperty m) span [pat]
    | _ => failAt pat.span .parameterPropertyPattern

/-- Whether all parameters are plain names. -/
def areSimple (ps : List Tree) : Bool :=
  ps.all fun p => match p with
    | .node (.part .param) _ [.node (.pat (.name _ _)) _ _] => true
    | .node (.pat (.name _ _)) _ _ => true
    | _ => false

end InlineTemplates.Script.Parse
