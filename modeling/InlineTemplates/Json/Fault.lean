import InlineTemplates.Text.Span

/-! # What can be wrong with a JSON text -/

namespace InlineTemplates.Json

inductive FaultKind where
  | endInList | endInObject | endInString | endInValue
  | expectedColon | expectedListEnd | expectedObjectEnd | expectedWord | expectedValue
  | invalidEscape | endOfEscape | loneSurrogate | controlCharacter
  | invalidNumber | numberRange
  | keyNotString | trailingComma | trailingCharacters | tooDeep
  /-- A value of another form than the one that is wanted here. -/
  | form (found wanted : Text)
  | duplicateKey (key : String)
  /-- A value that has none of the forms of an alternative. -/
  | noForm (type : String)
deriving DecidableEq, Repr

def FaultKind.message : FaultKind → Text
  | endInList => text "EOF while parsing a list"
  | endInObject => text "EOF while parsing an object"
  | endInString => text "EOF while parsing a string"
  | endInValue => text "EOF while parsing a value"
  | expectedColon => text "expected `:`"
  | expectedListEnd => text "expected `,` or `]`"
  | expectedObjectEnd => text "expected `,` or `\x7d`"
  | expectedWord => text "expected ident"
  | expectedValue => text "expected value"
  | invalidEscape => text "invalid escape"
  | endOfEscape => text "unexpected end of hex escape"
  | loneSurrogate => text "lone leading surrogate in hex escape"
  | controlCharacter => text "control character (\\u0000-\\u001F) found while parsing a string"
  | invalidNumber => text "invalid number"
  | numberRange => text "number out of range"
  | keyNotString => text "key must be a string"
  | trailingComma => text "trailing comma"
  | trailingCharacters => text "trailing characters"
  | tooDeep => text "recursion limit exceeded"
  | form found wanted => text "invalid type: " ++ found ++ text ", expected " ++ wanted
  | duplicateKey key => text ("duplicate field `" ++ key ++ "`")
  | noForm type => text ("data did not match any variant of untagged enum " ++ type)

/-- A fault and where it was found. The column counts the bytes of the line before the place. A
fault of a value as a whole has no place until the value around it is left. -/
structure Fault where
  kind : FaultKind
  place : Option Place
deriving DecidableEq, Repr

def Fault.message (f : Fault) : Text :=
  f.kind.message ++ match f.place with
    | some p => text (" at line " ++ toString p.line ++ " column " ++ toString p.column)
    | none => []

end InlineTemplates.Json
