import InlineTemplates.Json.Reader

/-! # Strings of a JSON text -/

namespace InlineTemplates.Json.Reader

/-- The value of a hexadecimal digit. -/
def hexDigit? (c : Char) : Option Nat :=
  if '0' ≤ c && c ≤ '9' then some (c.toNat - 48)
  else if 'a' ≤ c && c ≤ 'f' then some (c.toNat - 87)
  else if 'A' ≤ c && c ≤ 'F' then some (c.toNat - 55)
  else none

/-- The cursor behind so many bytes. It may end up inside a character, whose rest stays. -/
def behindBytes : Nat → Cursor → Cursor
  | 0, s => s
  | n + 1, ⟨p, []⟩ => behindBytes n ⟨p, []⟩
  | n + 1, ⟨p, c :: rest⟩ =>
    if c.utf8Size ≤ n + 1 then behindBytes (n + 1 - c.utf8Size) ⟨placeAfter p c, rest⟩
    else ⟨⟨p.line, p.column + (n + 1)⟩, c :: rest⟩
termination_by n => n
decreasing_by
  · omega
  · have := Char.utf8Size_pos c
    omega

/-- The four digits of an escape. -/
def hexCode : Reader Nat := do
  let s ← get
  if byteLength s.rest < 4 then
    set (behindBytes (byteLength s.rest) s)
    failBehind .endInString
  set (behindBytes 4 s)
  match s.rest.take 4 |>.map hexDigit? with
  | [some a, some b, some c, some d] => return ((a * 16 + b) * 16 + c) * 16 + d
  | _ => failBehind .invalidEscape

/-- Takes the mark that the second half of a surrogate pair needs next. -/
def pairMark (mark : Char) : Reader Unit := do
  match ← peek? with
  | none => failBehind .endInString
  | some c => if c == mark then skip else failInto .endOfEscape

/-- The character of an escape by code. Two halves of a surrogate pair make one character. -/
def codeEscape : Reader Char := do
  let first ← hexCode
  if 0xDC00 ≤ first && first ≤ 0xDFFF then failBehind .loneSurrogate
  if first < 0xD800 || 0xDBFF < first then return Char.ofNat first
  pairMark '\\'
  pairMark 'u'
  let second ← hexCode
  if second < 0xDC00 || 0xDFFF < second then failBehind .loneSurrogate
  return Char.ofNat ((first - 0xD800) * 0x400 + (second - 0xDC00) + 0x10000)

/-- The character of an escape by one letter. -/
def letterEscape? (c : Char) : Option Char :=
  match c with
  | '"' | '\\' | '/' => some c
  | 'b' => some '\x08'
  | 'f' => some '\x0c'
  | 'n' => some '\n'
  | 'r' => some '\r'
  | 't' => some '\t'
  | _ => none

/-- The character of an escape after its backslash. -/
def escape : Reader Char := do
  match ← peek? with
  | none => failBehind .endInString
  | some 'u' =>
    skip
    codeEscape
  | some c =>
    match letterEscape? c with
    | some e =>
      skip
      return e
    | none => failInto .invalidEscape

/-- A string after its first quote. -/
def string : Reader Text := do
  return (← repeated step).reverse
where
  step (found : Text) : Reader (Option Text) := do
    match ← peek? with
    | none => failBehind .endInString
    | some '"' =>
      skip
      return none
    | some '\\' =>
      skip
      return some ((← escape) :: found)
    | some c =>
      if c.toNat < 0x20 then failInto .controlCharacter
      skip
      return some (c :: found)

/-- Passes over a string after its first quote. Halves of surrogate pairs may stand alone in it. -/
def skipString : Reader Unit := do
  let _ ← repeated step
where
  step (found : Text) : Reader (Option Text) := do
    match ← peek? with
    | none => failBehind .endInString
    | some '"' =>
      skip
      return none
    | some '\\' =>
      skip
      match ← peek? with
      | none => failBehind .endInString
      | some 'u' =>
        skip
        let _ ← hexCode
        return some found
      | some c =>
        if (letterEscape? c).isNone then failInto .invalidEscape
        skip
        return some found
    | some c =>
      if c.toNat < 0x20 then failBehind .controlCharacter
      skip
      return some found

/-- A key of an object, whose quote comes next. -/
def key : Reader Text := do
  skip
  string

end InlineTemplates.Json.Reader
