import InlineTemplates.Text.Decimal
import InlineTemplates.Text.Span

/-! # How literals are spelled

A literal of a source keeps its spelling. One that no source spells, and each literal of dense
code, is spelled by the rules here. -/

namespace InlineTemplates.Script.Spelling

def hexDigits (n : Nat) : Text := Nat.toDigits 16 n

def isHexDigit (c : Char) : Bool :=
  c.isDigit || ('a' ≤ c && c ≤ 'f') || ('A' ≤ c && c ≤ 'F')

def hexValue (t : Text) : Nat :=
  t.foldl (fun n c =>
    16 * n + (if c.isDigit then c.toNat - 48 else if 'a' ≤ c then c.toNat - 87 else c.toNat - 55)) 0

/-! ## Strings -/

/-- Whether the four digits of half a surrogate pair stand here. -/
def startsHalf : Text → Bool
  | a :: b :: c :: d :: _ =>
    (a == 'd' || a == 'D') && [b, c, d].all isHexDigit && 0xD800 ≤ hexValue [a, b, c, d]
  | _ => false

/-- Whether what stands after a backslash makes it the escape of half a surrogate pair: text holds
such halves in this spelling. -/
def escapesHalf : Text → Bool
  | 'u' :: '\x7b' :: rest => startsHalf rest
  | 'u' :: rest => startsHalf rest
  | _ => false

/-- A character in a quoted string, by what stands after it. -/
def quotedChar (c : Char) (rest : Text) : Text :=
  if c == '\x00' then
    if (rest.head?.map Char.isDigit).getD false then text "\\x00" else text "\\0"
  else if c == '\x08' then text "\\b"
  else if c == '\x0c' then text "\\f"
  else if c == '\n' then text "\\n"
  else if c == '\r' then text "\\r"
  else if c == '\x0b' then text "\\v"
  else if c == '\t' then [c]
  else if c == '\\' then if escapesHalf rest then ['\\'] else ['\\', '\\']
  else if c.toNat < 0x10 then text "\\x0" ++ hexDigits c.toNat
  else if c.toNat < 0x20 then text "\\x" ++ hexDigits c.toNat
  else if c == '\u2028' then text "\\u2028"
  else if c == '\u2029' then text "\\u2029"
  else if c == '\uFEFF' then text "\\uFEFF"
  else [c]

/-- The characters of a quoted string, without regard to its quotes. -/
def quotedBody : Text → Text
  | [] => []
  | c :: rest => quotedChar c rest ++ quotedBody rest

/-- The text with a backslash before each quote of one kind. -/
def escapeQuote (quote : Char) (t : Text) : Text :=
  t.flatMap fun c => if c == quote then ['\\', c] else [c]

/-- A string in double quotes, or in single quotes if it has more double ones inside. -/
def quoted (t : Text) : Text :=
  let quote := if t.count '\'' < t.count '"' then '\'' else '"'
  [quote] ++ escapeQuote quote (quotedBody t) ++ [quote]

/-! ## Numbers -/

def trailingZeros (t : Text) : Nat := (t.reverse.takeWhile (· == '0')).length

/-- The shortest spelling of a number that dense code uses. -/
def denseNumber (x : Decimal) : Text :=
  let hex? : Option Text := match x.whole? with
    | some n =>
      if n ≤ Nat.pow 2 64 && 10000000 ≤ n && min n (Nat.pow 2 64 - 1) % 1000 != 0 then
        some (text "0x" ++ hexDigits (min n (Nat.pow 2 64 - 1)))
      else none
    | none => none
  match hex? with
  | some t => t
  | none =>
    let shown := x.shown.toList
    match shown with
    | '0' :: '.' :: part =>
      let zeros := (part.takeWhile (· == '0')).length
      if zeros > 2 then part.drop zeros ++ text "e-" ++ (toString part.length).toList
      else '.' :: part
    | _ =>
      let zeros := trailingZeros shown
      if zeros ≥ 3 then shown.take (shown.length - zeros) ++ ['e'] ++ (toString zeros).toList
      else shown

/-- A number; `raw` is how its source spells it. -/
def number (dense : Bool) (x : Decimal) (raw : Option Text) : Text :=
  match raw with
  | some r => if dense && !x.isInfinite then denseNumber x else r
  | none => if x.isInfinite then text "Infinity"
    else if dense then denseNumber x else x.shown.toList

/-- Whether a number takes a dot of its own before the dot of a property: it does where that dot
could be read as its decimal point. A number of the old octal form has none, and a number too large
for its kind takes one in dense code. -/
def takesDot (dense : Bool) (x : Decimal) (raw : Option Text) : Bool :=
  let digits := (number dense x raw).filter (· != '_')
  let plain := digits.all Char.isDigit
  match dense, raw with
  | _, none => !x.isInfinite && plain
  | true, some _ => x.isInfinite || plain
  | false, some _ => plain && !(digits.length ≥ 2 && digits.head? == some '0')

/-- A big integer. -/
def bigInt (dense : Bool) (n : Nat) (raw : Option Text) : Text :=
  match dense, raw with
  | false, some r => r
  | false, none => (toString n).toList ++ ['n']
  | true, _ =>
    if n ≥ 10000000000000000 then text "0x" ++ hexDigits n ++ ['n']
    else (toString n).toList ++ ['n']

/-- A string; `raw` is how its source spells it. The directive for strict code keeps an escape, with
which it is no directive. -/
def string (dense : Bool) (t : Text) (raw : Option Text) : Text :=
  match raw with
  | some r => if !dense || (t == text "use strict" && r.contains '\\') then r else quoted t
  | none => quoted t

/-! ## Templates -/

/-- Line ends of a template are line feeds. -/
def lineFeeds : Text → Text
  | '\r' :: '\n' :: rest => '\n' :: lineFeeds rest
  | '\r' :: rest => '\n' :: lineFeeds rest
  | c :: rest => c :: lineFeeds rest
  | [] => []

/-- A character of a template in dense code. -/
def denseTemplateChar (c : Char) (rest : Text) : Text :=
  if c == '\x00' then
    if (rest.head?.map fun d => '1' ≤ d && d ≤ '9').getD false then text "\\x00" else text "\\0"
  else if c == '\x08' then text "\\b"
  else if c == '\x0c' then text "\\f"
  else if c == '\x0b' then text "\\v"
  else if 0x7f ≤ c.toNat && c.toNat ≤ 0xff then text "\\x" ++ hexDigits c.toNat
  else if c == '\u2028' then text "\\u2028"
  else if c == '\u2029' then text "\\u2029"
  else if c == '\uFEFF' then text "\\uFEFF"
  else [c]

/-- A character by its code, in dense code. -/
def denseCode (code : Nat) (after : Option Char) : Text :=
  if code == 0 then
    if (after.map fun d => '1' ≤ d && d ≤ '9').getD false then text "\\x00" else text "\\0"
  else if code < 16 then text "\\x0" ++ hexDigits code
  else if 32 ≤ code && code ≤ 126 then [Char.ofNat code]
  else text "\\x" ++ hexDigits code

/-- A stretch of a template in dense code: escapes that are not needed are gone. The character after
one that was written by its code of two digits stays as it is, a backslash too. `dollar` says that
a dollar sign that needs no escape was written since the last escaped brace. -/
def denseTemplate (dollar : Bool) : Text → Text
  | [] => []
  | '\\' :: 'x' :: rest =>
    let ds := (rest.take 2).takeWhile isHexDigit
    let after := rest.drop ds.length
    denseCode (hexValue ds) after.head? ++ after.take 1 ++ denseTemplate dollar (after.drop 1)
  | '\\' :: c :: rest =>
    if c == 'n' then '\n' :: denseTemplate dollar rest
    else if c == 't' then '\t' :: denseTemplate dollar rest
    else if c == '\u2028' || c == '\u2029' then denseTemplate dollar rest
    else if (text "\\rvbfu\r\n`01234567").contains c then ['\\', c] ++ denseTemplate dollar rest
    else if c == '$' then
      if rest.head? == some '\x7b' then ['\\', '$'] ++ denseTemplate dollar rest
      else '$' :: denseTemplate true rest
    else if c == '\x7b' && dollar then ['\\', '\x7b'] ++ denseTemplate false rest
    else denseTemplateChar c rest ++ denseTemplate dollar rest
  | c :: rest => denseTemplateChar c rest ++ denseTemplate (dollar || c == '$') rest
termination_by t => t.length
decreasing_by all_goals (simp only [List.length_cons, List.length_drop]; omega)

/-- A stretch of a template. -/
def template (dense : Bool) (raw : Text) : Text :=
  let t := lineFeeds raw
  if dense then denseTemplate false t else t

end InlineTemplates.Script.Spelling
