import InlineTemplates.Json.Fault

/-! # Steps of reading a JSON text -/

namespace InlineTemplates.Json

/-- The rest of a text and the place where it starts: a line counted from 1, and the bytes of that
line before it. -/
structure Cursor where
  place : Place := ⟨1, 0⟩
  rest : Text
deriving Repr

/-- The place after a character. -/
def placeAfter (p : Place) (c : Char) : Place :=
  if c == '\n' then ⟨p.line + 1, 0⟩ else ⟨p.line, p.column + c.utf8Size⟩

/-- The place after the first byte of a character. -/
def placeInto (p : Place) (c : Char) : Place :=
  if c == '\n' then ⟨p.line + 1, 0⟩ else ⟨p.line, p.column + 1⟩

/-- A step that reads. What it has read stays read even if it fails. -/
abbrev Reader (α : Type) := ExceptT Fault (StateM Cursor) α

namespace Reader

def peek? : Reader (Option Char) := do return (← get).rest.head?

/-- Takes the next character. -/
def take? : Reader (Option Char) := do
  let s ← get
  match s.rest with
  | [] => return none
  | c :: rest =>
    set ({ place := placeAfter s.place c, rest := rest } : Cursor)
    return some c

def skip : Reader Unit := do let _ ← take?

/-! ## Faults -/

/-- A fault of what was read last. -/
def failBehind {α : Type} (kind : FaultKind) : Reader α := do throw ⟨kind, some (← get).place⟩

/-- A fault of the next character: it is just behind that character's first byte. -/
def failAhead {α : Type} (kind : FaultKind) : Reader α := do
  let s ← get
  throw ⟨kind, some ((s.rest.head?.map (placeInto s.place)).getD s.place)⟩

/-- A fault of a character that is taken with its first byte. -/
def failInto {α : Type} (kind : FaultKind) : Reader α := do
  let s ← get
  skip
  throw ⟨kind, some ((s.rest.head?.map (placeInto s.place)).getD s.place)⟩

/-- A fault of a whole value. -/
def failWhole {α : Type} (kind : FaultKind) : Reader α := throw ⟨kind, none⟩

/-- Gives a fault without a place the place that the step has reached. -/
def placed {α : Type} (step : Reader α) : Reader α :=
  tryCatch step fun f => do throw { f with place := f.place.or (some (← get).place) }

/-- Content and what closes it. The end is looked for even if the content is faulty, but then the
fault of the content counts. -/
def closed {α : Type} (content : Reader α) (close : Reader Unit) : Reader α :=
  placed (ExceptT.mk do
    let value ← content.run
    let ending ← close.run
    return match value, ending with
      | .error f, _ => .error f
      | _, .error f => .error f
      | .ok a, .ok () => .ok a)

/-! ## Marks and words -/

def isBlank (c : Char) : Bool := c == ' ' || c == '\n' || c == '\t' || c == '\r'

/-- The rest of a text behind its blanks. -/
def behindBlanks (p : Place) : Text → Cursor
  | [] => ⟨p, []⟩
  | c :: rest => if isBlank c then behindBlanks (placeAfter p c) rest else ⟨p, c :: rest⟩

/-- The next character that is no blank. -/
def next? : Reader (Option Char) := do
  let s ← get
  set (behindBlanks s.place s.rest)
  peek?

/-- The rest of a word whose first letter was taken. -/
def word : List Char → Reader Unit
  | [] => return
  | c :: rest => do
    match ← peek? with
    | none => failBehind .endInValue
    | some d => if d == c then skip else failInto .expectedWord
    word rest

/-- Repeats a step that tells when to stop. Each round but the last takes a character. -/
def repeated {α : Type} (step : List α → Reader (Option (List α))) : Reader (List α) := do
  go (← get).rest.length.succ []
where
  go : Nat → List α → Reader (List α)
    | 0, found => return found
    | n + 1, found => do
      match ← step found with
      | none => return found
      | some more => go n more

/-! ## Lists and objects -/

/-- Whether an element of a list follows; a comma before it is taken. -/
def atElement (first : Bool) : Reader Bool := do
  match ← next? with
  | none => failAhead .endInList
  | some ']' => return false
  | some c =>
    if first then return true
    if c != ',' then failAhead .expectedListEnd
    skip
    match ← next? with
    | some ']' => failAhead .trailingComma
    | some _ => return true
    | none => failAhead .endInValue

/-- The elements of a list after its bracket. -/
def elements {α : Type} (element : Reader α) : Reader (List α) :=
  repeated fun found => do
    if ← atElement found.isEmpty then return some (found ++ [← element]) else return none

/-- The end of a list. -/
def listEnd : Reader Unit := do
  match ← next? with
  | some ']' => skip
  | some ',' =>
    skip
    if (← next?) == some ']' then failAhead .trailingComma else failAhead .trailingCharacters
  | some _ => failAhead .trailingCharacters
  | none => failAhead .endInList

/-- Whether a key of an object follows; a comma before it is taken. -/
def atKey (first : Bool) : Reader Bool := do
  match ← next? with
  | none => failAhead .endInObject
  | some '\x7d' => return false
  | some c =>
    if first then
      if c == '"' then return true else failAhead .keyNotString
    if c != ',' then failAhead .expectedObjectEnd
    skip
    match ← next? with
    | some '"' => return true
    | some '\x7d' => failAhead .trailingComma
    | some _ => failAhead .keyNotString
    | none => failAhead .endInValue

/-- The colon after a key. -/
def colon : Reader Unit := do
  match ← next? with
  | some ':' => skip
  | some _ => failAhead .expectedColon
  | none => failAhead .endInObject

/-- The end of an object. -/
def objectEnd : Reader Unit := do
  match ← next? with
  | some '\x7d' => skip
  | some ',' => failAhead .trailingComma
  | some _ => failAhead .trailingCharacters
  | none => failAhead .endInObject

/-- Nothing but blanks. -/
def textEnd : Reader Unit := do
  if (← next?).isSome then failAhead .trailingCharacters

/-- Opens a list or an object, if the number of brackets that may still be open allows it. -/
def opened (depth : Nat) : Reader Unit := if depth ≤ 1 then failAhead .tooDeep else skip

end Reader
end InlineTemplates.Json
