import InlineTemplates.Script.Lexer.Blank

/-! # Steps of reading characters -/

namespace InlineTemplates.Script

/-- A step that reads characters: it may fail, and what it has read until then stays read. -/
abbrev Read (α : Type) := ReaderT Context (ExceptT SyntaxError (StateM Lexer)) α

namespace Read

def lexer : Read Lexer := get

/-- The next character. -/
def next? : Read (Option Char) := do return (← get).rest.head?

/-- The character after the next `n`. -/
def ahead? (n : Nat) : Read (Option Char) := do return (← get).rest[n]?

def position : Read Nat := do return (← get).position

def skip (n : Nat) : Read Unit := modify (·.skip n)

/-- Takes characters while they satisfy `p`. -/
def takeWhile (p : Char → Bool) : Read Text := do
  let run := (← get).rest.takeWhile p
  skip run.length
  return run

/-- Takes the character `c` if it comes next. -/
def accept (c : Char) : Read Bool := do
  if (← next?) == some c then
    skip 1
    return true
  return false

/-- Whether the text comes next. -/
def at? (t : Text) : Read Bool := do return t.isPrefixOf (← get).rest

def failAt {α : Type} (span : Span) (kind : SyntaxErrorKind) : Read α :=
  throw ⟨span, kind⟩

/-- Fails with an error from `start` to here. -/
def fail {α : Type} (start : Nat) (kind : SyntaxErrorKind) : Read α := do
  failAt ⟨start, ← position⟩ kind

/-- Notes an error and goes on. -/
def noteAt (span : Span) (kind : SyntaxErrorKind) : Read Unit := do
  let c ← read
  modify (·.report c span kind)

/-- Notes an error from `start` to here and goes on. -/
def note (start : Nat) (kind : SyntaxErrorKind) : Read Unit := do
  noteAt ⟨start, ← position⟩ kind

/-- Notes an error that only strict code has. -/
def noteStrict (start : Nat) (kind : SyntaxErrorKind) : Read Unit := do
  if (← read).strict then note start kind

/-- Runs a step and gives its failure as a value. -/
def attempt {α : Type} (step : Read α) : Read (Except SyntaxError α) := do
  try return .ok (← step) catch e => return .error e

/-- The characters from an earlier state to here. -/
def since (before : Lexer) : Read Text := do return before.upTo (← get)

end Read
end InlineTemplates.Script
