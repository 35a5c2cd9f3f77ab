import InlineTemplates.Json.Number
import InlineTemplates.Json.Quoted
import InlineTemplates.Text.Shown

/-! # Values of a JSON text -/

namespace InlineTemplates.Json

/-- A value. An object keeps all its entries in their order. -/
inductive Value where
  | null
  | bool (b : Bool)
  | number (n : Number)
  | string (t : Text)
  | list (elements : List Value)
  | object (entries : List (Text × Value))
deriving Repr

namespace Reader

/-- A value that is a word, and its first letter is taken. -/
def wordValue? (c : Char) : Option (Text × Value) :=
  match c with
  | 'n' => some (text "ull", .null)
  | 't' => some (text "rue", .bool true)
  | 'f' => some (text "alse", .bool false)
  | _ => none

/-- A value without parts that starts with this character, if one does. -/
def scalar? (c : Char) : Option (Reader Value) :=
  match wordValue? c with
  | some (letters, v) => some do
    skip
    word letters
    return v
  | none =>
    if c == '-' then some do
      skip
      return .number (← number true)
    else if isDigit c then some do return .number (← number false)
    else if c == '"' then some do
      skip
      return .string (← string)
    else none

/-- The entries of an object after its brace. -/
def entries {α : Type} (value : Reader α) : Reader (List (Text × α)) :=
  repeated fun found => do
    if !(← atKey found.isEmpty) then return none
    let k ← key
    colon
    return some (found ++ [(k, ← value)])

/-- A value; `depth` bounds the brackets that may be open in it. -/
def value : Nat → Reader Value
  | 0 => failAhead .tooDeep
  | depth + 1 => do
    match ← next? with
    | none => failAhead .endInValue
    | some '[' =>
      opened (depth + 1)
      closed (do return .list (← elements (value depth))) listEnd
    | some '\x7b' =>
      opened (depth + 1)
      closed (do return .object (← entries (value depth))) objectEnd
    | some c =>
      match scalar? c with
      | some step => step
      | none => failAhead .expectedValue

/-! ## Passing over values -/

/-- Passes over the parts of a list or an object after its opening mark and over its closing one. -/
def skipParts (close : Char) (atEnd elsewhere : FaultKind) (part : Reader Unit) : Reader Unit := do
  match ← next? with
  | none => failAhead atEnd
  | some c =>
    if c == close then skip
    else
      let _ ← repeated fun found => do
        part
        match ← next? with
        | none => failAhead atEnd
        | some c =>
          if c != ',' && c != close then failAhead elsewhere
          skip
          return if c == ',' then some (() :: found) else none

/-- Passes over a key of an object and the colon after it. -/
def skipKey : Reader Unit := do
  match ← next? with
  | some '"' => skip
  | some _ => failAhead .keyNotString
  | none => failAhead .endInObject
  skipString
  colon

/-- Passes over a value without parts that starts with this character. -/
def skipScalar (c : Char) : Reader Unit := do
  match wordValue? c with
  | some (letters, _) =>
    skip
    word letters
  | none =>
    if c == '-' then
      skip
      skipNumber
    else if isDigit c then skipNumber
    else if c == '"' then
      skip
      skipString
    else failAhead .expectedValue

/-- Passes over a value. The text's length bounds its depth. -/
def skipValue : Nat → Reader Unit
  | 0 => failAhead .expectedValue
  | fuel + 1 => do
    match ← next? with
    | none => failAhead .endInValue
    | some '[' =>
      skip
      skipParts ']' .endInList .expectedListEnd (skipValue fuel)
    | some '\x7b' =>
      skip
      skipParts '\x7d' .endInObject .expectedObjectEnd do
        skipKey
        skipValue fuel
    | some c => skipScalar c

def skipAnyValue : Reader Unit := do skipValue (← get).rest.length.succ

/-! ## Values of the wrong form -/

end Reader

/-- The value as messages name it. -/
def Value.described : Value → Text
  | null => text "null"
  | bool b => text ("boolean `" ++ toString b ++ "`")
  | number n => n.described
  | string t => text "string " ++ Text.shown t
  | list _ => text "sequence"
  | object _ => text "map"

namespace Reader

/-- The fault of a value that has another form than the wanted one. A list or an object is not read
for that. -/
def otherForm {α : Type} (c : Char) (wanted : Text) : Reader α := placed do
  if c == '[' then failWhole (.form (Value.list []).described wanted)
  if c == '\x7b' then failWhole (.form (Value.object []).described wanted)
  match scalar? c with
  | some step => failWhole (.form (← step).described wanted)
  | none => failAhead .expectedValue

end Reader
end InlineTemplates.Json
