import InlineTemplates.Script.Operator
import InlineTemplates.Script.SyntaxError
import InlineTemplates.Text.Decimal

/-! # Tokens -/

namespace InlineTemplates.Script

/-- Marks of one fixed spelling. -/
inductive Mark where
  | arrow | hash | at | dot | ellipsis | bang | parenOpen | parenClose | bracketOpen | bracketClose
  | braceOpen | braceClose | semicolon | comma | backquote | colon | dollarBrace | question
  | plusPlus | minusMinus | tilde | tagStart | tagEnd
  | op (op : BinaryOp)
  | assign (op : AssignOp)
deriving DecidableEq, Repr

/-- The spelling of the mark. -/
def Mark.symbol : Mark → String
  | arrow => "=>" | hash => "#" | «at» => "@" | dot => "." | ellipsis => "..." | bang => "!"
  | parenOpen => "(" | parenClose => ")" | bracketOpen => "[" | bracketClose => "]"
  | braceOpen => "\x7b" | braceClose => "\x7d" | semicolon => ";" | comma => "," | backquote => "`"
  | colon => ":" | dollarBrace => "$\x7b" | question => "?" | plusPlus => "++" | minusMinus => "--"
  | tilde => "~" | tagStart => "< (jsx tag start)" | tagEnd => "> (jsx tag end)"
  | op o => o.symbol
  | assign o => o.symbol

inductive Token where
  | mark (m : Mark)
  | keyword (k : Keyword)
  /-- A name. A plain one is nothing but a name, even if its letters are those of a special word. -/
  | name (n : Text) (plain : Bool)
  | string (value raw : Text)
  | number (value : Decimal) (raw : Text)
  | bigInt (value : Nat) (raw : Text)
  | regex (body flags : Text)
  /-- A stretch of a template; `none` when an escape in it cannot be read, with the fault. -/
  | template (cooked : Except SyntaxError Text) (raw : Text)
  | jsxName (n : Text)
  | jsxText (value raw : Text)
  | hashbang (content : Text)
  | broken (error : SyntaxError)
deriving Repr

namespace Token

/-- The token as error messages quote it. -/
def shown : Token → String
  | mark m => m.symbol
  | keyword k => k.word
  | name n _ => String.ofList n
  | string v raw => s!"string literal ({String.ofList v}, {String.ofList raw})"
  | number v raw => s!"numeric literal ({v.shown}, {String.ofList raw})"
  | bigInt v raw => s!"bigint literal ({v}, {String.ofList raw})"
  | regex body flags => s!"regexp literal ({String.ofList body}, {String.ofList flags})"
  | template _ raw => s!"template token ({String.ofList raw})"
  | jsxName n => s!"jsx name ({String.ofList n})"
  | jsxText _ raw => s!"jsx text ({String.ofList raw})"
  | hashbang _ => "#!"
  | broken _ => "<lexing error>"

end Token
end InlineTemplates.Script
