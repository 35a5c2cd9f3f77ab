import InlineTemplates.Text.Span

/-! # Operators and keywords -/

namespace InlineTemplates.Script

inductive BinaryOp where
  | eq | notEq | strictEq | strictNotEq | lt | ltEq | gt | gtEq
  | shiftLeft | shiftRight | shiftRightZero
  | add | sub | mul | div | mod | bitOr | bitXor | bitAnd | or | and
  | inOp | instanceOf | exp | coalesce
deriving DecidableEq, Repr

namespace BinaryOp

def symbol : BinaryOp → String
  | eq => "==" | notEq => "!=" | strictEq => "===" | strictNotEq => "!=="
  | lt => "<" | ltEq => "<=" | gt => ">" | gtEq => ">="
  | shiftLeft => "<<" | shiftRight => ">>" | shiftRightZero => ">>>"
  | add => "+" | sub => "-" | mul => "*" | div => "/" | mod => "%"
  | bitOr => "|" | bitXor => "^" | bitAnd => "&" | or => "||" | and => "&&"
  | inOp => "in" | instanceOf => "instanceof" | exp => "**" | coalesce => "??"

/-- How tightly the operator binds. -/
def precedence : BinaryOp → Nat
  | coalesce => 1
  | or => 1
  | and => 2
  | bitOr => 3
  | bitXor => 4
  | bitAnd => 5
  | eq | notEq | strictEq | strictNotEq => 6
  | lt | ltEq | gt | gtEq | inOp | instanceOf => 7
  | shiftLeft | shiftRight | shiftRightZero => 8
  | add | sub => 9
  | mul | div | mod => 10
  | exp => 11

/-- Operators written as words. -/
def isWord : BinaryOp → Bool
  | inOp | instanceOf => true
  | _ => false

end BinaryOp

/-- Operators that assign: plain, or with a binary operator. -/
inductive AssignOp where
  | plain
  | with (op : BinaryOp)
deriving DecidableEq, Repr

def AssignOp.symbol : AssignOp → String
  | plain => "="
  | .with op => op.symbol ++ "="

inductive UnaryOp where
  | minus | plus | not | bitNot | typeOf | void | delete
deriving DecidableEq, Repr

namespace UnaryOp

def symbol : UnaryOp → String
  | minus => "-" | plus => "+" | not => "!" | bitNot => "~"
  | typeOf => "typeof" | void => "void" | delete => "delete"

def isWord : UnaryOp → Bool
  | typeOf | void | delete => true
  | _ => false

end UnaryOp

/-- The words that are never plain names, and three that sometimes are: `await`, `yield`, `let`. -/
inductive Keyword where
  | await | break | case | catch | continue | debugger | default | do | else | finally | for
  | function | if | return | switch | throw | try | var | let | const | while | with | new | this
  | super | classWord | extends | export | import | yield | in | instanceOf | typeOf | void | delete
  | null | true | false
deriving DecidableEq, Repr

namespace Keyword

def word : Keyword → String
  | await => "await" | «break» => "break" | case => "case" | «catch» => "catch"
  | «continue» => "continue" | debugger => "debugger" | default => "default" | «do» => "do"
  | «else» => "else" | «finally» => "finally" | «for» => "for" | function => "function"
  | «if» => "if" | «return» => "return" | switch => "switch" | throw => "throw" | «try» => "try"
  | var => "var" | «let» => "let" | const => "const" | «while» => "while" | «with» => "with"
  | new => "new" | this => "this" | super => "super" | classWord => "class" | «extends» => "extends"
  | «export» => "export" | «import» => "import" | yield => "yield" | «in» => "in"
  | instanceOf => "instanceof" | typeOf => "typeof" | void => "void" | delete => "delete"
  | null => "null" | true => "true" | false => "false"

def all : List Keyword :=
  [await, «break», case, «catch», «continue», debugger, default, «do», «else», «finally», «for»,
   function, «if», «return», switch, throw, «try», var, «let», const, «while», «with», new, this,
   super, classWord, «extends», «export», «import», yield, «in», instanceOf, typeOf, void, delete,
   null, true, false]

/-- The keywords with their letters. -/
def table : List (Text × Keyword) := all.map fun k => (text k.word, k)

/-- The keyword with these letters. -/
def ofText? (t : Text) : Option Keyword := table.lookup t

/-- Whether an expression may follow the keyword. -/
def beforeExpr : Keyword → Bool
  | await | case | default | «do» | «else» | «return» | throw | new | «extends» | yield | «in»
  | instanceOf | typeOf | void | delete => Bool.true
  | _ => Bool.false

/-- Literals are read as keywords but are not counted as keywords by the lexer. -/
def isLiteral : Keyword → Bool
  | null | true | false => Bool.true
  | _ => Bool.false

end Keyword

end InlineTemplates.Script
