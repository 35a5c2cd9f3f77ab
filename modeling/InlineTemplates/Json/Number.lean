import InlineTemplates.Json.Reader
import InlineTemplates.Text.Decimal

/-! # Numbers of a JSON text

A number without fraction and exponent is whole as long as 64 bits hold it. Every other number is
rounded to 53 bits, and again when its digits are scaled by its power of ten. -/

namespace InlineTemplates.Json

inductive Number where
  | whole (n : Nat)
  | negative (n : Nat)
  | real (negative : Bool) (value : Binary64)
deriving DecidableEq, Repr

namespace Number

/-- A rounded value in the fewest digits that read back: with a point up to sixteen digits before it
and four zeros after it, else with an exponent. -/
def shownReal : Binary64 → Text
  | .infinite => text "inf"
  | .finite m q =>
    let x := Binary64.shortest m q
    let all := Nat.toDigits 10 x.digits
    let digits := Text.dropTrailing '0' all
    let exponent : Int := x.exponent + (all.length - digits.length : Nat)
    let point : Int := exponent + digits.length
    if x.digits == 0 then text "0.0"
    else if 0 ≤ exponent && point ≤ 16 then
      digits ++ List.replicate exponent.natAbs '0' ++ text ".0"
    else if 0 < point && point ≤ 16 then
      digits.take point.natAbs ++ ['.'] ++ digits.drop point.natAbs
    else if -5 < point && point ≤ 0 then
      text "0." ++ List.replicate point.natAbs '0' ++ digits
    else
      let mantissa :=
        if digits.length ≤ 1 then digits else digits.take 1 ++ ['.'] ++ digits.drop 1
      mantissa ++ text ("e" ++ toString (point - 1))

/-- The number as messages name it. -/
def described : Number → Text
  | whole n => text ("integer `" ++ toString n ++ "`")
  | negative n => text ("integer `-" ++ toString n ++ "`")
  | real sign x =>
    text "floating point `" ++ (if sign then ['-'] else []) ++ shownReal x ++ text "`"

end Number

namespace Reader

def isDigit (c : Char) : Bool := '0' ≤ c && c ≤ '9'

def digitOf (c : Char) : Nat := c.toNat - 48

/-- The next character, if it is a digit. -/
def peekDigit? : Reader (Option Char) := do return (← peek?).filter isDigit

def atExponent : Reader Bool := do
  let c ← peek?
  return c == some 'e' || c == some 'E'

/-- A run of digits: a value that 64 bits hold, how many digits made it, and whether digits beyond
it remain. -/
structure DigitRun where
  value : Nat
  count : Nat
  full : Bool

/-- Takes digits until 64 bits are full. -/
def digitRun (value : Nat) : Reader DigitRun := do
  go (← get).rest.length value 0
where
  go : Nat → Nat → Nat → Reader DigitRun
    | 0, v, n => return ⟨v, n, false⟩
    | fuel + 1, v, n => do
      match ← peekDigit? with
      | none => return ⟨v, n, false⟩
      | some c =>
        if Nat.pow 2 64 ≤ 10 * v + digitOf c then return ⟨v, n, true⟩
        skip
        go fuel (10 * v + digitOf c) (n + 1)

/-- Passes over digits and counts them. -/
def skipDigits : Reader Nat := do
  let digits := (← get).rest.takeWhile isDigit
  digits.forM fun _ => skip
  return digits.length

/-- The digits times the power of ten, rounded after each step. -/
def scaledReal : Nat → Binary64 → Int → Option Binary64
  | 0, x, _ => some x
  | fuel + 1, x, e =>
    if e.natAbs ≤ 308 then
      let power := Binary64.ofDecimal ⟨1, e.natAbs⟩
      if 0 ≤ e then
        let y := x.mul power
        if y == .infinite then none else some y
      else some (x.div power)
    else if x.fraction?.map (·.1) == some 0 then some x
    else if 0 ≤ e then none
    else scaledReal fuel (x.div (.ofDecimal ⟨1, 308⟩)) (e + 308)

/-- The number with these digits and this power of ten. -/
def real (negative : Bool) (digits : Nat) (exponent : Int) : Reader Number := do
  match scaledReal (exponent.natAbs / 308 + 2) (.ofDecimal (.ofNat digits)) exponent with
  | some x => return .real negative x
  | none => failBehind .numberRange

/-- The bound of what an exponent may be. -/
def exponentBound : Nat := Nat.pow 2 31

/-- An exponent after its letter, and the number that it completes. -/
def exponentPart (negative : Bool) (digits : Nat) (exponent : Int) : Reader Number := do
  skip
  let sign ← peek?
  if sign == some '+' || sign == some '-' then skip
  match ← peek? with
  | none => failBehind .endInValue
  | some c =>
    if !isDigit c then failInto .invalidNumber
    skip
    match ← go (← get).rest.length (digitOf c) with
    | some e =>
      let exponent := if sign == some '-' then exponent - e else exponent + e
      real negative digits (max (min exponent 2147483647) (-2147483648))
    | none =>
      if digits != 0 && sign != some '-' then failBehind .numberRange
      let _ ← skipDigits
      return .real negative (.finite 0 (-1074))
where
  /-- The value of the exponent, unless it passes the bound. -/
  go : Nat → Nat → Reader (Option Nat)
    | 0, e => return some e
    | fuel + 1, e => do
      match ← peekDigit? with
      | none => return some e
      | some c =>
        skip
        if exponentBound ≤ 10 * e + digitOf c then return none
        go fuel (10 * e + digitOf c)

/-- A fraction after its digits before the point, and the number that it completes. -/
def fractionPart (negative : Bool) (digits : Nat) (exponent : Int) : Reader Number := do
  skip
  let run ← digitRun digits
  if run.count == 0 && !run.full then
    if (← peek?).isSome then failAhead .invalidNumber else failAhead .endInValue
  if run.full then
    let _ ← skipDigits
  let exponent := exponent - run.count
  if ← atExponent then exponentPart negative run.value exponent
  else real negative run.value exponent

/-- A number after its sign. -/
def number (negative : Bool) : Reader Number := do
  match ← peek? with
  | none => failBehind .endInValue
  | some c =>
    if !isDigit c then failInto .invalidNumber
    skip
    if c == '0' && (← peekDigit?).isSome then failAhead .invalidNumber
    let run ← if c == '0' then pure ⟨0, 0, false⟩ else digitRun (digitOf c)
    let beyond ← if run.full then skipDigits else pure 0
    if (← peek?) == some '.' then fractionPart negative run.value beyond
    else if ← atExponent then exponentPart negative run.value beyond
    else if run.full then real negative run.value beyond
    else if !negative then return .whole run.value
    else if run.value == 0 || Nat.pow 2 63 < run.value then
      return .real true (.ofDecimal (.ofNat run.value))
    else return .negative run.value

/-- Passes over a number after its sign. -/
def skipNumber : Reader Unit := do
  let digit : Reader Unit := do
    match ← peek? with
    | none => failBehind .invalidNumber
    | some c => if isDigit c then skip else failInto .invalidNumber
  let first ← peek?
  digit
  if first == some '0' then
    if (← peekDigit?).isSome then failAhead .invalidNumber
  else
    let _ ← skipDigits
  if (← peek?) == some '.' then
    skip
    if (← skipDigits) == 0 then failAhead .invalidNumber
  if ← atExponent then
    skip
    let sign ← peek?
    if sign == some '+' || sign == some '-' then skip
    digit
    let _ ← skipDigits

end Reader
end InlineTemplates.Json
