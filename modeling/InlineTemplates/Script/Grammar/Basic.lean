import InlineTemplates.Script.Lexer.Next
import InlineTemplates.Script.Tree

/-! # Steps of reading tokens -/

namespace InlineTemplates.Script

/-- The state between two tokens. The next token is read when it is first asked for, because how it
is read depends on the context of whoever asks. -/
structure ParseState where
  source : Text
  lexer : Lexer
  current : Option PlacedToken := none
  following : Option PlacedToken := none
  /-- The span of the token taken last. -/
  previous : Span
  /-- Where an expression started whose first name or parenthesis may begin an arrow function. -/
  arrowStart : Option Nat := none
  /-- The labels of the enclosing statements, innermost first. -/
  labels : List Text := []
  /-- The trailing commas of lists with a rest element, by the position of their bracket. -/
  trailingCommas : List (Nat × Span) := []
deriving Repr

/-- A step that reads tokens. A failure stops it; other errors are noted on the way. -/
abbrev Parse (α : Type) := ReaderT Context (ExceptT SyntaxError (StateM ParseState)) α

namespace Parse

def context : Parse Context := read

/-- Runs a step in a changed context. -/
def within {α : Type} (change : Context → Context) (step : Parse α) : Parse α :=
  fun c => step (change c)

/-! ## Tokens -/

/-- The current token, or none at the end. -/
def placed? : Parse (Option PlacedToken) := do
  let s ← get
  match s.current with
  | some t => return some t
  | none =>
    match s.following with
    | some t =>
      set { s with current := some t, following := none }
      return some t
    | none =>
      let (t, lexer) := s.lexer.next (← context)
      set { s with current := t, lexer := lexer }
      return t

def token? : Parse (Option Token) := do return (← placed?).map (·.token)

/-- The token after the current one. -/
def nextPlaced? : Parse (Option PlacedToken) := do
  let _ ← placed?
  let s ← get
  match s.following with
  | some t => return some t
  | none =>
    let (t, lexer) := s.lexer.next (← context)
    set { s with following := t, lexer := lexer }
    return t

def next? : Parse (Option Token) := do return (← nextPlaced?).map (·.token)

/-- Takes the current token. -/
def advance : Parse Unit := do
  match ← placed? with
  | some t => modify fun s => { s with current := none, previous := t.span }
  | none => return ()

/-- The span of the current token, or of the last one at the end. -/
def currentSpan : Parse Span := do
  match ← placed? with
  | some t => return t.span
  | none => return (← get).previous

/-- The span of the current token if it was looked at before, else of the token taken last. -/
def seenSpan : Parse Span := do
  let s ← get
  return match s.current with
    | some t => t.span
    | none => s.previous

/-- Where the current token starts. -/
def here : Parse Nat := do
  match ← placed? with
  | some t => return t.span.lo
  | none => return (← get).previous.hi

def previous : Parse Span := do return (← get).previous

/-- Where the token taken last ends. -/
def lastEnd : Parse Nat := do return (← get).previous.hi

/-- From `start` to the end of the token taken last. -/
def spanFrom (start : Nat) : Parse Span := do return ⟨start, ← lastEnd⟩

/-- Whether a line ends before the current token; so it is at the end. -/
def lineBreak : Parse Bool := do
  return ((← placed?).map (·.lineBreak)).getD true

/-- Whether a line ends before the token after the current one; so it is at the end. -/
def lineBreakAfter : Parse Bool := do
  return ((← nextPlaced?).map (·.lineBreak)).getD true

/-! ## Errors -/

/-- The current token if it could not be read. -/
def broken? : Parse (Option SyntaxError) := do
  match ← token? with
  | some (.broken e) => return some e
  | _ => return none

/-- Adds an error to those that do not stop the reading, unless the reading may be given up. -/
def addError (e : SyntaxError) : Parse Unit := do
  if !(← context).trial then
    modify fun s => { s with lexer := s.lexer.addError e }

/-- Stops with an error. An error of the current token itself is noted first. -/
def failAt {α : Type} (span : Span) (kind : SyntaxErrorKind) : Parse α := do
  if let some e ← broken? then
    advance
    addError e
  throw ⟨span, kind⟩

/-- Stops with an error at the current token. -/
def fail {α : Type} (kind : SyntaxErrorKind) : Parse α := do
  failAt (← currentSpan) kind

/-- Where a character of the source would stand if positions counted the bytes of its encoding. -/
def byteOffset (s : ParseState) (position : Nat) : Nat :=
  1 + byteLength (s.source.take (position - s.lexer.origin))

/-- How messages name the current token. -/
def currentShown : Parse String := do
  match ← token? with
  | some (.broken e) =>
    let s ← get
    let place := toString (byteOffset s e.span.lo) ++ ".." ++ toString (byteOffset s e.span.hi)
    return "<lexing error: Error \x7b error: (" ++ place ++ ", " ++ e.kind.detail ++ ") \x7d>"
  | some t => return t.shown
  | none => return "<eof>"

/-- How messages name the current token where it is a value that may be missing. -/
def currentOptional : Parse String := do
  if (← token?).isNone then return "None"
  return "Some(" ++ (← currentShown) ++ ")"

/-- Stops because of the current token. -/
def unexpected {α : Type} (wanted : String) : Parse α := do
  fail (.unexpected (← currentShown) wanted)

/-- Keeps an error and goes on. -/
def keep (e : SyntaxError) : Parse Unit := do
  if (← context).trial then return ()
  if let some b ← broken? then
    advance
    addError b
  addError e

def note (span : Span) (kind : SyntaxErrorKind) : Parse Unit := keep ⟨span, kind⟩

/-- Notes an error of strict code. Modules alone have it; other strict code goes without. -/
def noteInModule (span : Span) (kind : SyntaxErrorKind) : Parse Unit := do
  if (← context).moduleCode then note span kind

/-- Stops at the end of the source. -/
def failAtEnd {α : Type} : Parse α := do
  let stop := (← get).lexer.stop
  throw ⟨⟨stop, stop⟩, .endOfInput⟩

/-- The current token, which has to be there and to be readable. -/
def someToken : Parse Token := do
  match ← token? with
  | some (.broken e) =>
    advance
    throw e
  | some t => return t
  | none => failAtEnd

/-! ## Tests and choices -/

def at? (m : Mark) : Parse Bool := do
  return match ← token? with
    | some (.mark n) => n == m
    | _ => false

def atKeyword (k : Keyword) : Parse Bool := do
  return match ← token? with
    | some (.keyword j) => j == k
    | _ => false

/-- Whether the token is the name, and not one that only has its letters. -/
def isName (n : String) : Option Token → Bool
  | some (.name m plain) => !plain && m == text n
  | _ => false

/-- Whether the current token is the name. -/
def atName (n : String) : Parse Bool := do return isName n (← token?)

def isMark (m : Mark) : Option Token → Bool
  | some (.mark n) => n == m
  | _ => false

def isKeyword (k : Keyword) : Option Token → Bool
  | some (.keyword j) => j == k
  | _ => false

/-- Whether the token is a word of any kind. -/
def isWord : Option Token → Bool
  | some (.name _ _) | some (.keyword _) => true
  | _ => false

/-- Whether the token is a word that is not reserved here. -/
def isFreeWord (c : Context) : Option Token → Bool
  | some (.name n plain) => plain || !c.reservesName n
  | some (.keyword k) => !c.reservesKeyword k
  | _ => false

def atWord : Parse Bool := do return isWord (← token?)
def atFreeWord : Parse Bool := do return isFreeWord (← context) (← token?)

/-- Whether the token after the current one satisfies `p`. -/
def nextIs (p : Option Token → Bool) : Parse Bool := do return p (← next?)

def nextAt (m : Mark) : Parse Bool := do return isMark m (← next?)
def nextAtWord : Parse Bool := do return isWord (← next?)
def nextAtFreeWord : Parse Bool := do return isFreeWord (← context) (← next?)

def atEnd : Parse Bool := do return (← token?).isNone

def accept (m : Mark) : Parse Bool := do
  if ← at? m then
    advance
    return true
  return false

def acceptKeyword (k : Keyword) : Parse Bool := do
  if ← atKeyword k then
    advance
    return true
  return false

def acceptName (n : String) : Parse Bool := do
  if ← atName n then
    advance
    return true
  return false

/-- Stops because something else was needed here. -/
def failExpected {α : Type} (wanted : String) : Parse α := do
  fail (.expected wanted (← currentShown))

def expect (m : Mark) : Parse Unit := do
  if !(← accept m) then failExpected m.symbol

def expectKeyword (k : Keyword) : Parse Unit := do
  if !(← acceptKeyword k) then failExpected k.word

def expectName (n : String) : Parse Unit := do
  if !(← acceptName n) then failExpected n

/-- Whether a statement may end here: at a semicolon, a closing brace, a new line or the end. -/
def atSemicolon : Parse Bool := do
  match ← token? with
  | some (.mark .semicolon) | some (.mark .braceClose) | none => return true
  | _ => lineBreak

/-- Ends a statement, taking the semicolon if there is one. -/
def acceptSemicolon : Parse Bool := do
  if ← accept .semicolon then return true
  match ← token? with
  | some (.mark .braceClose) | none => return true
  | _ => lineBreak

def expectSemicolon : Parse Unit := do
  if !(← acceptSemicolon) then failExpected ";"

/-! ## Trials and repetition -/

/-- Goes back to an earlier state. What was recorded since then stays. -/
def goBack (before : ParseState) : Parse Unit :=
  modify fun s => { before with lexer := { before.lexer with record := s.lexer.record } }

/-- Runs a step that may be given up: when it fails or gives nothing, nothing was read. -/
def attempt {α : Type} (step : Parse (Option α)) : Parse (Option α) := do
  let before ← get
  let result ← try within ({ · with trial := true }) step catch _ => pure none
  if result.isNone then goBack before
  return result

/-- Looks ahead: the answer of a step of which nothing stays read. -/
def lookAhead (step : Parse Bool) : Parse Bool := do
  let before ← get
  let result ← try within ({ · with trial := true }) step catch _ => pure false
  goBack before
  return result

/-- More steps than the tokens of the source, so a bound for all repetitions that take a token. -/
def bound : Parse Nat := do
  let l := (← get).lexer
  return 2 * (l.stop - l.origin) + 8

/-- Repeats a step from a state until it ends with a result, at most `n` times. -/
def iterateUpTo {σ ρ : Type} (step : σ → Parse (σ ⊕ ρ)) : Nat → σ → Parse ρ
  | 0, _ => failAtEnd
  | n + 1, s => do
    match ← step s with
    | .inl s' => iterateUpTo step n s'
    | .inr r => return r

/-- Repeats a step from a state until it ends with a result. -/
def iterate {σ ρ : Type} (start : σ) (step : σ → Parse (σ ⊕ ρ)) : Parse ρ := do
  iterateUpTo step (← bound) start

/-- The results of a step that is repeated until it gives none. -/
def collect {α : Type} (step : Parse (Option α)) : Parse (List α) := do
  let found ← iterate ([] : List α) fun acc => do
    match ← step with
    | some x => return .inl (x :: acc)
    | none => return .inr acc
  return found.reverse

end Parse

/-- The constructs that contain each other. Each rule is written against these, and the rules are
tied together by depth. -/
structure Grammar where
  /-- Expressions with commas. -/
  expr : Parse Tree
  /-- Expressions without a comma at their top. -/
  assignment : Parse Tree
  unary : Parse Tree
  /-- Binary operators after an operand that bind tighter than a precedence. -/
  operators : Tree → Nat → Parse Tree
  /-- What can stand left of an assignment, with calls. -/
  leftHandSide : Parse Tree
  /-- A member expression or `new` with what follows it. -/
  memberOrNew : Bool → Parse Tree
  statement : Parse Tree
  /-- A statement or a declaration. -/
  statementItem : Parse Tree
  /-- A statement, a declaration, an import or an export. -/
  moduleItem : Parse Tree
  /-- A name or a destructuring pattern, with its type. -/
  pattern : Parse Tree
  element : Parse Tree
  type : Parse Tree
  nonConditionalType : Parse Tree
  unionOperand : Parse Tree
  typeElement : Parse Tree
  namespaceTail : Nat → Parse Tree

end InlineTemplates.Script
