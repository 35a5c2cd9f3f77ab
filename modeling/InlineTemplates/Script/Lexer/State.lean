import InlineTemplates.Script.Comment
import InlineTemplates.Script.Context
import InlineTemplates.Script.Token

/-! # The state of the lexer -/

namespace InlineTemplates.Script

/-- What encloses the next token. Templates and tags are read by rules of their own, and a closing
brace goes back to the rules that held before its opening one. -/
inductive Enclosure where
  | blockBrace | exprBrace | templateBrace
  | stmtParen (loop : Bool)
  | exprParen
  | template
  | functionExpr | classExpr
  | openingTag | closingTag | tagContent
deriving DecidableEq, Repr

namespace Enclosure

/-- Whether what was enclosed ends an expression. -/
def isExpr : Enclosure → Bool
  | exprBrace | templateBrace | exprParen | template | functionExpr | classExpr | tagContent => true
  | _ => false

/-- Whether blanks belong to the content. -/
def keepsBlanks : Enclosure → Bool
  | template | tagContent => true
  | _ => false

end Enclosure

/-- What the lexer remembers of the token before. -/
inductive TokenClass where
  | template | dot | colon | braceOpen | parenClose | semicolon | arrow
  | jsxName | jsxText | tagStart | tagEnd
  | operator (op : BinaryOp)
  | keyword (k : Keyword)
  | other (beforeExpr takesTrailing : Bool)
deriving DecidableEq, Repr

namespace TokenClass

def ofMark : Mark → TokenClass
  | .dot => dot
  | .colon => colon
  | .braceOpen => braceOpen
  | .parenClose => parenClose
  | .semicolon => semicolon
  | .arrow => arrow
  | .tagStart => tagStart
  | .tagEnd => tagEnd
  | .op o => operator o
  | .ellipsis | .bang | .parenOpen | .bracketOpen | .comma | .question | .tilde | .assign _ =>
    other true false
  | .dollarBrace => other true true
  | .braceClose => other false true
  | .hash | .at | .bracketClose | .backquote | .plusPlus | .minusMinus => other false false

def of : Token → TokenClass
  | .mark m => ofMark m
  | .keyword k => if k.isLiteral then other false false else keyword k
  | .template _ _ => template
  | .jsxName _ => jsxName
  | .jsxText _ _ => jsxText
  | .name _ _ | .number _ _ | .string _ _ | .regex _ _ | .bigInt _ _ => other false true
  | .hashbang _ | .broken _ => other false false

/-- Whether an expression may follow. -/
def beforeExpr : TokenClass → Bool
  | template | dot | parenClose | jsxName | tagStart | tagEnd => false
  | colon | braceOpen | semicolon | arrow | jsxText | operator _ => true
  | keyword k => k.beforeExpr
  | other b _ => b

/-- Whether a block comment after the token can trail it. -/
def takesTrailing : TokenClass → Bool
  | semicolon | braceOpen => true
  | other _ t => t
  | _ => false

/-- Whether a line comment after the token can trail it. -/
def takesTrailingLine : TokenClass → Bool
  | operator _ => false
  | _ => true

end TokenClass

/-- What is recorded for good, even by a reading that is given up. -/
structure Record where
  /-- Errors that do not stop the reading, oldest first. -/
  errors : List SyntaxError := []
  /-- The comments that were handed over at the end of the source. A reading that is given up after
  it came to the end has handed over its comments too. -/
  comments : Comments := []
deriving Repr

/-- The lexer: what is left to read and what is remembered of what was read. -/
structure Lexer where
  rest : Text
  /-- The position of the next character. -/
  position : Nat
  enclosures : List Enclosure := [.blockBrace]
  exprAllowed : Bool := true
  /-- Where to read a regular expression next, when one is awaited. -/
  regexFrom : Option (Nat × Text) := none
  templateStart : Nat := 0
  lineBreak : Bool := false
  lineBreakBeforeLast : Bool := false
  atStart : Bool := true
  last : Option TokenClass := none
  lastEnd : Nat
  tokenStart : Nat := 0
  /-- Comments that wait for the token that they lead. -/
  pending : List Comment := []
  /-- Comments whose place is known and that are not handed over yet. -/
  placed : Comments := []
  record : Record := {}
  /-- The position of the first character of the source. -/
  origin : Nat
  /-- The position after the last character. -/
  stop : Nat
deriving Repr

namespace Lexer

/-- The lexer at the front of a source whose first character has the position `origin`. -/
def ofSource (source : Text) (origin : Nat) : Lexer where
  rest := source
  position := origin
  lastEnd := origin
  origin := origin
  stop := origin + source.length

/-- The lexer after `n` more characters. -/
def skip (l : Lexer) (n : Nat) : Lexer :=
  { l with rest := l.rest.drop n, position := l.position + min n l.rest.length }

theorem rest_skip (l : Lexer) (n : Nat) : (l.skip n).rest = l.rest.drop n := rfl

/-- What the lexer has left to read and where it stands stay in step. -/
theorem position_add_length_skip (l : Lexer) (n : Nat) :
    (l.skip n).position + (l.skip n).rest.length = l.position + l.rest.length := by
  simp only [skip, List.length_drop]
  omega

/-- The characters from here to where another state of the lexer stands. -/
def upTo (l later : Lexer) : Text := l.rest.take (later.position - l.position)

/-- Records an error. -/
def addError (l : Lexer) (e : SyntaxError) : Lexer :=
  { l with record := { l.record with errors := l.record.errors ++ [e] } }

/-- Records an error, unless the reading may be given up. -/
def report (l : Lexer) (c : Context) (span : Span) (kind : SyntaxErrorKind) : Lexer :=
  if c.trial then l else l.addError ⟨span, kind⟩

def enclosure (l : Lexer) : Option Enclosure := l.enclosures.head?

end Lexer
end InlineTemplates.Script
