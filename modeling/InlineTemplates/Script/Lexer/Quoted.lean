import InlineTemplates.Script.Lexer.Number
import InlineTemplates.Text.Entity

/-! # Escapes, strings, templates and regular expressions -/

namespace InlineTemplates.Script.Read

/-! ## Escapes -/

/-- Hexadecimal digits: exactly `limit` of them, or any number if `limit` is 0. `none` when there
are too few or the value is too large for 32 bits; reading stops at the digit that makes it so. -/
def hexDigits (limit : Nat) : Read (Option Nat) := do
  let tooLarge (ds : Text) : Bool := Nat.pow 2 32 ≤ Text.digitsValue 16 ds
  let ds ← digitsUntil 16 fun ds => tooLarge ds || ds.length == limit
  if ds.isEmpty || tooLarge ds || (limit != 0 && ds.length != limit) then return none
  return some (Text.digitsValue 16 ds)

/-- Whether a code unit is one half of a pair of code units. -/
def isSurrogate (n : Nat) : Bool := 0xD800 ≤ n && n ≤ 0xDFFF

/-- Goes back to an earlier place of the source. -/
def goBack (before : Lexer) : Read Unit :=
  modify fun l => { l with rest := before.rest, position := before.position }

/-- A code point written in hexadecimal after `u`, plain or in braces. Half of a pair of code units
stands for no character, so it is kept as it is written. -/
def unicodeEscape : Read Text := do
  skip 1
  let curly ← accept '\x7b'
  let before ← lexer
  match ← hexDigits (if curly then 0 else 4) with
  | none =>
    fail (← position) (.badEscape (if curly then "1-6 hex characters" else "4 hex characters"))
  | some value =>
    if value > 0x10FFFF then
      fail (← position) (.badEscape
        (if curly then "1-6 hex characters in the range 0 to 10FFFF." else "4 hex characters"))
    let chars ← if isSurrogate value then do
        goBack before
        let run :=
          if curly then (before.rest.take 6).takeWhile (· != '\x7d') else before.rest.take 4
        skip run.length
        pure (if curly then ['\\', 'u', '\x7b'] ++ run ++ ['\x7d'] else ['\\', 'u'] ++ run)
      else pure [Char.ofNat value]
    if curly then
      if !(← accept '\x7d') then fail before.position .invalidUnicodeEscape
    return chars

/-- Up to `n` more octal digits while the value fits a byte. -/
def octalDigits : Nat → Nat → Read Nat
  | 0, value => return value
  | n + 1, value => do
    match (← next?).bind (Text.digitValue? 8) with
    | some d =>
      let more := value * 8 + d
      if more ≤ 255 then
        skip 1
        octalDigits n more
      else return value
    | none => return value

/-- An escape in a string or a template, from its backslash on: the characters that it stands for.
An escaped line end stands for none. -/
def escape (inTemplate : Bool) : Read Text := do
  let start ← position
  skip 1
  match ← next? with
  | none => failAt ⟨start, start⟩ .invalidStringEscape
  | some c =>
    let plain (c : Char) : Read Text := do
      skip 1
      return [c]
    match c with
    | 'n' => plain '\n'
    | 'r' => plain '\r'
    | 't' => plain '\t'
    | 'b' => plain '\x08'
    | 'v' => plain '\x0b'
    | 'f' => plain '\x0c'
    | '\r' =>
      skip 1
      let _ ← accept '\n'
      return []
    | '\n' | '\u2028' | '\u2029' =>
      skip 1
      return []
    | 'x' =>
      skip 1
      match ← hexDigits 2 with
      | some v => return [Char.ofNat v]
      | none => fail start (.badEscape "2 hex characters")
    | 'u' =>
      match ← attempt unicodeEscape with
      | .ok chars => return chars
      | .error e => fail start e.kind
    | '0' | '1' | '2' | '3' | '4' | '5' | '6' | '7' =>
      skip 1
      if c == '0' && !((← next?).any (Text.isDigitOf 8)) then return ['\x00']
      if inTemplate then fail start .legacyOctal
      noteStrict start .legacyOctal
      return [Char.ofNat (← octalDigits 2 (Text.digitsValue 8 [c]))]
    | c => plain c

/-! ## Strings -/

/-- The rest of a string up to its closing quote; `bound` limits the number of steps. A string that
is not closed on its line ends there. -/
def stringRest (before : Lexer) (quote : Char) : Nat → Text → Read Token
  | 0, value => return .string value (← since before)
  | bound + 1, value => do
    let run ← takeWhile fun c => c != quote && c != '\\' && c != '\n' && c != '\r'
    let value := value ++ run
    match ← next? with
    | some '\\' => stringRest before quote bound (value ++ (← escape false))
    | some c =>
      if c == quote then
        skip 1
        return .string value (← since before)
      note before.position .unterminatedString
      return .string value (← since before)
    | none =>
      note before.position .unterminatedString
      return .string value (← since before)

def string (quote : Char) : Read Token := do
  let before ← lexer
  skip 1
  stringRest before quote (before.rest.length + 1) []

/-! ## Templates -/

/-- The rest of a stretch of a template. An escape that cannot be read makes the stretch have no
cooked text, which is an error only where there is no tag; the last such escape tells which. -/
def templateRest (before : Lexer) : Nat → Except SyntaxError Text → Read Token
  | 0, _ => fail before.templateStart .unterminatedTemplate
  | bound + 1, cooked => do
    let run ← takeWhile fun c => c != '`' && c != '$' && c != '\\' && c != '\r'
    let cooked := cooked.map (· ++ run)
    match (← lexer).rest with
    | '`' :: _ | '$' :: '\x7b' :: _ => return .template cooked (← since before)
    | '$' :: _ =>
      skip 1
      templateRest before bound (cooked.map (· ++ ['$']))
    | '\r' :: more =>
      skip (if more.head? == some '\n' then 2 else 1)
      templateRest before bound (cooked.map (· ++ ['\n']))
    | _ :: _ =>
      match ← attempt (escape true) with
      | .ok chars => templateRest before bound (cooked.map (· ++ chars))
      | .error e => templateRest before bound (.error e)
    | [] => fail before.templateStart .unterminatedTemplate

/-- A stretch of a template, or the mark that ends the stretch before. -/
def templatePart : Read Token := do
  let before ← lexer
  let ended := before.last == some .template
  match before.rest with
  | '`' :: _ =>
    if ended then
      skip 1
      return .mark .backquote
  | '$' :: '\x7b' :: _ =>
    if ended then
      skip 2
      return .mark .dollarBrace
  | _ => pure ()
  templateRest before (before.rest.length + 1) (.ok [])

/-! ## Names -/

/-- The characters of a word, and whether one is escaped; `bound` limits the number of steps. An
escape may stand for any character that names have behind their first one, even in the first
place. -/
def wordRest : Nat → Text → Bool → Read (Text × Bool)
  | 0, word, escaped => return (word, escaped)
  | bound + 1, word, escaped => do
    let run ← takeWhile Text.isNamePart
    let word := word ++ run
    if (← next?) == some '\\' then
      -- A backslash that starts no escape is left unread.
      let p ← position
      if (← ahead? 1) != some 'u' then failAt ⟨p, p⟩ .expectedUnicodeEscape
      skip 1
      let chars ← unicodeEscape
      if chars.head?.any fun c => !Text.isNamePart c then note p .invalidNameChar
      wordRest bound (word ++ chars) true
    else return (word, escaped)

/-- A name or a keyword. A reserved word may not have escapes; but a word that starts with one is a
plain name, whatever its letters are. -/
def word : Read Token := do
  let l ← lexer
  let (w, escaped) ← wordRest (l.rest.length + 1) [] false
  if l.rest.head? == some '\\' then return .name w true
  if escaped && (← read).reserves w then fail l.position (.escapeInReservedWord w)
  return match Keyword.ofText? w with
    | some k => .keyword k
    | none => .name w false

/-! ## Regular expressions -/

/-- The body of a regular expression up to the slash that ends it: a slash in brackets does not. -/
def regexBody (escaped inClass : Bool) : Text → Text
  | [] => []
  | c :: rest =>
    if Text.isLineEnd c then []
    else if escaped then c :: regexBody false inClass rest
    else if c == '/' && !inClass then []
    else c :: regexBody (c == '\\') (c == '[' || (inClass && c != ']')) rest

def regex : Read Token := do
  let start ← position
  skip 1
  let body := regexBody false false (← lexer).rest
  skip body.length
  if (← next?) != some '/' then fail start .unterminatedRegex
  skip 1
  let l ← lexer
  let flags ← if (← next?).any Text.isNameStart then
      pure (← wordRest (l.rest.length + 1) [] false).1
    else pure []
  return .regex body flags

/-! ## Text between tags -/

/-- A character entity, or the ampersand alone when there is none. -/
def entity : Read Char := do
  let l ← lexer
  let inner := (l.rest.drop 1).take 10
  let content := inner.takeWhile (· != ';')
  match if content.length < inner.length then Text.entity? content else none with
  | some c =>
    skip (content.length + 2)
    return c
  | none =>
    skip 1
    return '&'

/-- The rest of a text between tags; `bound` limits the number of steps. -/
def tagTextRest (before : Lexer) : Nat → Text → Read Token
  | 0, _ => fail before.tokenStart .unterminatedJsxText
  | bound + 1, value => do
    match (← lexer).rest with
    | [] => fail before.tokenStart .unterminatedJsxText
    | '<' :: _ | '\x7b' :: _ => return .jsxText value (← since before)
    | '>' :: _ =>
      let p ← position
      noteAt ⟨p, p⟩ (.unexpectedInJsx "`\x7b'>'\x7d` or `&gt;`")
      skip 1
      tagTextRest before bound (value ++ ['>'])
    | '\x7d' :: _ =>
      let p ← position
      noteAt ⟨p, p⟩ (.unexpectedInJsx "`\x7b'\x7d'\x7d` or `&rbrace;`")
      skip 1
      tagTextRest before bound (value ++ ['\x7d'])
    | '&' :: _ => tagTextRest before bound (value ++ [← entity])
    | '\r' :: '\n' :: _ =>
      skip 2
      tagTextRest before bound (value ++ ['\n'])
    | c :: _ =>
      skip 1
      tagTextRest before bound (value ++ [c])

/-- A name in a tag: dashes are part of it. -/
def tagName : Read Token := do
  return .jsxName (← takeWhile fun c => Text.isNamePart c || c == '-')

/-- The rest of a string in a tag: entities are read, escapes are not. A line end of two characters
gives its second one twice. The closing quote is left unread unless more than one character follows
it. -/
def tagStringRest (before : Lexer) (quote : Char) : Nat → Text → Read Token
  | 0, value => return .string value (← since before)
  | bound + 1, value => do
    match (← lexer).rest with
    | [] =>
      note before.tokenStart .unterminatedString
      return .string value (← since before)
    | c :: more =>
      if c == quote then
        if more.length > 1 then skip 1
        return .string value (← since before)
      if c == '&' then tagStringRest before quote bound (value ++ [← entity])
      else
        skip 1
        let twice : Text := if c == '\r' && more.head? == some '\n' then ['\n'] else []
        tagStringRest before quote bound (value ++ [c] ++ twice)

def tagString (quote : Char) : Read Token := do
  let before ← lexer
  skip 1
  tagStringRest before quote (before.rest.length + 1) []

end InlineTemplates.Script.Read
