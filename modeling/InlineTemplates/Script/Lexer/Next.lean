import InlineTemplates.Script.Lexer.Enclosing
import InlineTemplates.Script.Lexer.Quoted

/-! # The next token -/

namespace InlineTemplates.Script

namespace Read

/-- Takes `n` characters for the mark. -/
def take (n : Nat) (m : Mark) : Read Token := do
  skip n
  return .mark m

/-- Past the rest of the line, as a comment whose mark has `mark` characters, and then past
blanks. -/
def lineComment (mark : Nat) : Read Unit := do
  let c ← read
  modify fun l => (l.skipLine mark).skipSpace c

/-- Records a comment of an old form, which modules may not have, in a reading that may be given up
too. -/
def noteLegacyComment (start stop : Nat) : Read Unit := do
  if (← read).moduleCode then modify (·.addError ⟨⟨start, stop⟩, .legacyComment⟩)

/-- Past a comment that starts like one of a page, with the blanks after it. -/
def legacyOpening : Read Unit := do
  let start ← position
  lineComment 4
  noteLegacyComment start (← position)

/-- Past a comment that starts as one of a page ends. -/
def legacyClosing : Read Unit := do
  let start ← position
  noteLegacyComment start (start + 3)
  lineComment 3

/-- Whether each angle mark stands alone here. -/
def splitsAngles (c : Context) : Bool := c.dialect.types && c.inType && !c.longAngles

/-- What a merge of two versions may leave at the start of a line, and how many of its characters
are no part of the comment that it starts. -/
def conflictMarks (c : Context) : List (Text × Nat) :=
  let angles := [("<<<<<<< ", 7), ("<<=<<<<< ", 8), (">>>>>>> ", 8), (">>>=>>>> ", 9)]
  (("=======", 7) :: if splitsAngles c then [] else angles).map fun (mark, n) => (text mark, n)

/-- The place of a conflict mark that starts here. -/
def conflictSpan : Read Span := do
  let start ← position
  return ⟨start, start + 7⟩

/-- Notes a conflict mark and passes its line. -/
def conflictLine (mark : Nat) : Read Unit := do
  noteAt (← conflictSpan) .conflictMarker
  lineComment mark

/-- Passes a conflict mark, if one stands here at the start of a line. -/
def conflictMark? : Read Bool := do
  let l ← lexer
  if !l.lineBreak then return false
  match (conflictMarks (← read)).find? fun (mark, _) => mark.isPrefixOf l.rest with
  | some (_, n) =>
    conflictLine n
    return true
  | none => return false

/-- Whether a mark that divides the versions of a conflict stands here, at the start of a line. -/
def atConflictDivider : Read Bool := do
  return (← lexer).lineBreak && (← at? (text "||||||| "))

/-- A slash as an operator; comments were skipped before. -/
def slash : Read Token := do
  if (← ahead? 1) == some '=' then take 2 (.assign (.with .div)) else take 1 (.op .div)

/-- An operator that starts with an angle mark. In a type each angle mark stands alone. -/
def angle (c : Char) : Read Token := do
  let ctx ← read
  let one : BinaryOp := if c == '<' then .lt else .gt
  let two : BinaryOp := if c == '<' then .shiftLeft else .shiftRight
  if splitsAngles ctx then return ← take 1 (.op one)
  let rest := (← lexer).rest
  if rest[1]? == some c then
    if c == '>' && rest[2]? == some '>' then
      if rest[3]? == some '=' then take 4 (.assign (.with .shiftRightZero))
      else take 3 (.op .shiftRightZero)
    else if rest[2]? == some '=' then take 3 (.assign (.with two))
    else take 2 (.op two)
  else if rest[1]? == some '=' then take 2 (.op (if c == '<' then .ltEq else .gtEq))
  else take 1 (.op one)

/-- An operator that may be doubled and may assign. -/
def doubled (c : Char) (one two : BinaryOp) : Read Token := do
  let rest := (← lexer).rest
  if rest[1]? == some c then
    if rest[2]? == some '=' then take 3 (.assign (.with two)) else take 2 (.op two)
  else if rest[1]? == some '=' then take 2 (.assign (.with one)) else take 1 (.op one)

/-- An operator that may assign. -/
def single (op : BinaryOp) : Read Token := do
  if (← ahead? 1) == some '=' then take 2 (.assign (.with op)) else take 1 (.op op)

/-- Marks of one character that start no longer mark. -/
def plainMark? : Char → Option Mark
  | '(' => some .parenOpen
  | ')' => some .parenClose
  | '[' => some .bracketOpen
  | ']' => some .bracketClose
  | '\x7b' => some .braceOpen
  | '\x7d' => some .braceClose
  | ';' => some .semicolon
  | ',' => some .comma
  | ':' => some .colon
  | '`' => some .backquote
  | '~' => some .tilde
  | '@' => some .at
  | '#' => some .hash
  | _ => none

/-- A token that starts with the character `c`. -/
def tokenFrom (c : Char) : Read Token := do
  let rest := (← lexer).rest
  match plainMark? c with
  | some m => take 1 m
  | none =>
    match c with
    | '.' =>
      if rest[1]?.any Text.isDigit then number true
      else if rest[1]? == some '.' && rest[2]? == some '.' then take 3 .ellipsis
      else take 1 .dot
    | '?' =>
      if rest[1]? == some '?' then
        if rest[2]? == some '=' then take 3 (.assign (.with .coalesce)) else take 2 (.op .coalesce)
      else take 1 .question
    | '0' =>
      match rest[1]? with
      | some 'x' | some 'X' => radixNumber 16
      | some 'o' | some 'O' => radixNumber 8
      | some 'b' | some 'B' => radixNumber 2
      | _ => number false
    | '"' | '\'' => string c
    | '/' => slash
    | '%' => single .mod
    | '*' => doubled c .mul .exp
    | '|' => doubled c .bitOr .or
    | '&' => doubled c .bitAnd .and
    | '^' => single .bitXor
    | '+' => if rest[1]? == some '+' then take 2 .plusPlus else single .add
    | '-' => if rest[1]? == some '-' then take 2 .minusMinus else single .sub
    | '<' | '>' => angle c
    | '!' =>
      if rest[1]? == some '=' then
        if rest[2]? == some '=' then take 3 (.op .strictNotEq) else take 2 (.op .notEq)
      else take 1 .bang
    | '=' =>
      if rest[1]? == some '=' then
        if rest[2]? == some '=' then take 3 (.op .strictEq) else take 2 (.op .eq)
      else if rest[1]? == some '>' then take 2 .arrow
      else take 1 (.assign .plain)
    | c =>
      if Text.isDigit c then number false
      else if Text.isNameStart c || c == '\\' then word
      else
        let p ← position
        skip 1
        failAt ⟨p, p⟩ (.unexpectedChar c)

/-- A token outside templates and tags; `bound` limits the number of old comments and of conflict
marks before it. -/
def token : Nat → Read (Option Token)
  | 0 => return none
  | bound + 1 => do
    let ctx ← read
    let l ← lexer
    if ← conflictMark? then return ← token bound
    match l.rest with
    | [] => return none
    -- A null character reads as an end, but what follows it can be read still.
    | '\x00' :: _ =>
      skip 1
      return none
    | '<' :: '!' :: '-' :: '-' :: _ =>
      if splitsAngles ctx then return some (← tokenFrom '<')
      legacyOpening
      token bound
    | '-' :: '-' :: '>' :: _ =>
      if l.lineBreak then
        legacyClosing
        token bound
      else return some (← tokenFrom '-')
    | c :: _ =>
      if ← atConflictDivider then
        let span ← conflictSpan
        conflictLine 7
        failAt span .conflictMarker
      return some (← tokenFrom c)

/-- A token outside templates and tags. -/
def anyToken : Read (Option Token) := do
  token ((← lexer).rest.length + 1)

/-- A token inside an element's content. -/
def contentToken : Read (Option Token) := do
  let l ← lexer
  match l.rest with
  | '<' :: _ => if l.exprAllowed then return some (← take 1 .tagStart) else anyToken
  | '\x7b' :: _ => anyToken
  | _ => return some (← tagTextRest l (l.rest.length + 1) [])

/-- A token that only tags have, if one comes next. -/
def tagToken? : Read (Option Token) := do
  let l ← lexer
  let opening := l.enclosure == some .openingTag
  match l.rest with
  | c :: more =>
    if opening || l.enclosure == some .closingTag then
      if Text.isNameStart c then return some (← tagName)
      if c == '>' then return some (← take 1 .tagEnd)
      if opening && (c == '"' || c == '\'') then return some (← tagString c)
    if c == '<' && l.exprAllowed && more.head? != some '!' then
      if l.lineBreak && (text "<<<<<<< ").isPrefixOf l.rest then
        conflictLine 7
        return ← anyToken
      return some (← take 1 .tagStart)
    return none
  | [] => return none

/-- A first line that names an interpreter. -/
def hashbang? : Read (Option Token) := do
  match (← lexer).rest with
  | '#' :: '!' :: _ =>
    skip 2
    return some (.hashbang (← takeWhile fun c => !Text.isLineEnd c))
  | _ => return none

/-- The next token, or none at the end of the source. -/
def nextToken : Read (Option Token) := do
  let ctx ← read
  let l ← lexer
  match l.regexFrom with
  | some (position, rest) =>
    set { l with rest := rest, position := position, tokenStart := position }
    return some (← regex)
  | none =>
    modify fun l => { l with tokenStart := l.position }
    if l.atStart then
      match ← hashbang? with
      | some t => return some t
      | none => pure ()
    let blanksBelong := (l.enclosure.map (·.keepsBlanks)).getD false
    modify fun l => { l with lineBreak := l.atStart, atStart := false }
    if !blanksBelong then modify (·.skipSpace ctx)
    modify fun l => { l with tokenStart := l.position }
    let l ← lexer
    if l.rest.isEmpty then
      modify (·.handOver)
      return none
    if ctx.dialect.tags && !ctx.inPropertyName && !ctx.inType then
      if l.enclosure == some .tagContent then return ← contentToken
      match ← tagToken? with
      | some t => return some t
      | none => pure ()
    if l.enclosure == some .template then return some (← templatePart)
    anyToken

end Read

/-- A token with its place. -/
structure PlacedToken where
  token : Token
  span : Span
  /-- Whether a line ends between the token before and this one. -/
  lineBreak : Bool
deriving Repr

namespace Lexer

/-- The next token and the lexer after it. What cannot be read becomes a token too. -/
def next (l : Lexer) (c : Context) : Option PlacedToken × Lexer :=
  let (result, after) := ((Read.nextToken.run c).run).run l
  let finish (t : Token) : Option PlacedToken × Lexer :=
    let start := after.tokenStart
    let led := { after with
      pending := []
      placed := after.placed ++ after.pending.map (PlacedComment.mk .leading start) }
    (some ⟨t, ⟨start, after.position⟩, after.lineBreak⟩, led.remember start t)
  match result with
  | .ok none => (none, after)
  | .ok (some t) => finish t
  | .error e => finish (.broken e)

end Lexer
end InlineTemplates.Script
