import InlineTemplates.Script.Lexer.Read

/-! # Numbers -/

namespace InlineTemplates.Script.Read

/-- Digits with separators among them. -/
structure DigitRun where
  /-- The digits alone. -/
  digits : Text
  /-- The number of characters, separators included. -/
  length : Nat
  /-- The places of the separators that do not stand between two digits. -/
  stray : List Nat
deriving DecidableEq, Repr

/-- The digits at the front of a text, after the digits `taken`, up to the one with which they are
`full`. A separator needs a digit somewhere before it and a digit right after it. -/
def DigitRun.ofText (radix : Nat) (full : Text → Bool) (taken : Text) : Text → DigitRun
  | [] => ⟨taken, 0, []⟩
  | c :: more =>
    if c == '_' then
      let run := ofText radix full taken more
      let stray := run.stray.map (· + 1)
      let fine := !taken.isEmpty && more.head?.any (Text.isDigitOf radix)
      ⟨run.digits, run.length + 1, if fine then stray else 0 :: stray⟩
    else if Text.isDigitOf radix c then
      let taken := taken ++ [c]
      if full taken then ⟨taken, 1, []⟩
      else
        let run := ofText radix full taken more
        ⟨run.digits, run.length + 1, run.stray.map (· + 1)⟩
    else ⟨taken, 0, []⟩

/-- Reads digits with separators until they are `full`. -/
def digitsUntil (radix : Nat) (full : Text → Bool) : Read Text := do
  let l ← lexer
  let run := DigitRun.ofText radix full [] l.rest
  run.stray.forM fun n => noteAt ⟨l.position, l.position + n⟩ .separatorNotBetweenDigits
  skip run.length
  return run.digits

/-- Reads digits with separators. -/
def digits (radix : Nat) : Read Text := digitsUntil radix fun _ => false

/-- Reads at least one digit. -/
def someDigits (radix : Nat) : Read Text := do
  let start ← position
  let ds ← digits radix
  if ds.isEmpty then fail start (.expectedDigit radix)
  return ds

/-- A name may not follow a number without a blank. -/
def noNameHere : Read Unit := do
  if (← next?).any Text.isNameStart then
    let p ← position
    failAt ⟨p, p⟩ .nameAfterNumber

/-- A number after its radix mark. -/
def radixNumber (radix : Nat) : Read Token := do
  let before ← lexer
  skip 2
  let ds ← someDigits radix
  let value := Text.digitsValue radix ds
  if ← accept 'n' then
    return .bigInt value (← since before)
  noNameHere
  return .number (.ofNat value) (← since before)

/-- A number of the old octal form, as `017`. -/
def legacyOctalNumber (before : Lexer) (value : Nat) : Read Token := do
  noNameHere
  if (← read).dialect.types then note before.position .legacyOctalTarget
  noteStrict before.position .legacyOctal
  return .number (.ofNat value) (← since before)

/-- The fraction and the exponent of a number with these whole digits. -/
def numberTail (before : Lexer) (whole : Text) : Read Token := do
  let mut part : Text := []
  if (← next?) == some '.' then
    skip 1
    part ← digits 10
  let mut exponent : Int := 0
  if (← next?) == some 'e' || (← next?) == some 'E' then
    skip 1
    match ← next? with
    | none =>
      let p ← position
      fail p .exponentWithoutDigits
    | some sign =>
      if sign == '+' || sign == '-' then skip 1
      let ds ← someDigits 10
      let n : Int := Text.digitsValue 10 ds
      exponent := if sign == '-' then -n else n
  noNameHere
  let value := Text.digitsValue 10 (whole ++ part)
  return .number ⟨value, exponent - part.length⟩ (← since before)

/-- A number without a radix mark. A zero in front makes an old octal number, or an old decimal one
if a digit is too large for octal. -/
def number (startsWithDot : Bool) : Read Token := do
  let before ← lexer
  if startsWithDot then return ← numberTail before []
  let startsWithZero := (← next?) == some '0'
  let ds ← someDigits 10
  if ← accept 'n' then
    return .bigInt (Text.digitsValue 10 ds) (← since before)
  if startsWithZero then
    if Text.digitsValue 10 ds == 0 then
      if (← position) != before.position + 1 then
        return ← legacyOctalNumber before 0
    else if ds.any fun c => c == '8' || c == '9' then
      noteStrict before.position .legacyDecimal
    else
      return ← legacyOctalNumber before (Text.digitsValue 8 ds)
  numberTail before ds

end InlineTemplates.Script.Read
