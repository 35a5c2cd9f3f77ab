import InlineTemplates.Text.CharClass

/-! # Numbers as they are written -/

namespace InlineTemplates

/-- The number `digits * 10 ^ exponent`. -/
structure Decimal where
  digits : Nat
  exponent : Int
deriving DecidableEq, Repr

/-- The number `mantissa * 2 ^ exponent` of 53 significant bits, or a value beyond them all. -/
inductive Binary64 where
  | finite (mantissa : Nat) (exponent : Int)
  | infinite
deriving DecidableEq, Repr

namespace Binary64

/-- The quotient rounded to the nearest whole number, a tie to the even one. -/
def divRound (n d : Nat) : Nat :=
  let q := n / d
  let r := n % d
  if 2 * r > d || (2 * r == d && q % 2 == 1) then q + 1 else q

/-- `n / d * 2 ^ (-q)` as a fraction. -/
def scaled (n d : Nat) (q : Int) : Nat × Nat :=
  if q < 0 then (n * Nat.pow 2 q.natAbs, d) else (n, d * Nat.pow 2 q.natAbs)

/-- The largest exponent `e` with `2 ^ e ≤ n / d`, for positive `n` and `d`. -/
def log2 (n d : Nat) : Int :=
  let e : Int := (Nat.log2 n : Int) - (Nat.log2 d : Int)
  let s := scaled n d e
  if s.1 < s.2 then e - 1 else e

/-- The value nearest to the fraction `n / d`. -/
def ofFraction (n d : Nat) : Binary64 :=
  if n == 0 then finite 0 (-1074) else
    let q := max (log2 n d - 52) (-1074)
    let s := scaled n d q
    let m := divRound s.1 s.2
    let (m, q) := if m == Nat.pow 2 53 then (Nat.pow 2 52, q + 1) else (m, q)
    if q > 971 then infinite else finite m q

def ofDecimal (x : Decimal) : Binary64 :=
  if x.digits == 0 then finite 0 (-1074)
  -- Beyond these bounds the answer no longer depends on the digits.
  else if x.exponent > 400 then infinite
  else if x.exponent + Nat.log2 x.digits < -400 then finite 0 (-1074)
  else if x.exponent < 0 then ofFraction x.digits (Nat.pow 10 x.exponent.natAbs)
  else ofFraction (x.digits * Nat.pow 10 x.exponent.natAbs) 1

/-- The value as a fraction. -/
def fraction? : Binary64 → Option (Nat × Nat)
  | finite m q => some (scaled m 1 (-q))
  | infinite => none

/-- The product, rounded. -/
def mul (x y : Binary64) : Binary64 :=
  match x.fraction?, y.fraction? with
  | some a, some b => ofFraction (a.1 * b.1) (a.2 * b.2)
  | _, _ => infinite

/-- The quotient by a positive value, rounded. -/
def div (x y : Binary64) : Binary64 :=
  match x.fraction?, y.fraction? with
  | some a, some b => ofFraction (a.1 * b.2) (a.2 * b.1)
  | _, _ => infinite

/-- The exponent `p` with `10 ^ (p - 1) ≤ n / d < 10 ^ p`, by search from an estimate upwards. -/
def decimalPoint (n d : Nat) : Int :=
  let start : Int := log2 n d * 30103 / 100000 - 1
  let below (p : Int) : Bool :=
    if p < 0 then n * Nat.pow 10 p.natAbs < d else n < d * Nat.pow 10 p.natAbs
  if below start then start else if below (start + 1) then start + 1
  else if below (start + 2) then start + 2 else if below (start + 3) then start + 3 else start + 4

/-- The decimals of `k` digits next to `n / d`, nearer one first. -/
def neighbours (n d : Nat) (p : Int) (k : Nat) : List Decimal :=
  let grid : Int := p - k
  let s := if grid < 0 then (n * Nat.pow 10 grid.natAbs, d) else (n, d * Nat.pow 10 grid.natAbs)
  let low := s.1 / s.2
  let rest := s.1 % s.2
  if rest == 0 then [⟨low, grid⟩]
  else if 2 * rest > s.2 || (2 * rest == s.2 && low % 2 == 1) then [⟨low + 1, grid⟩, ⟨low, grid⟩]
  else [⟨low, grid⟩, ⟨low + 1, grid⟩]

/-- The fewest digits that read back as the value, the nearest of those. -/
def shortest (m : Nat) (q : Int) : Decimal :=
  if m == 0 then ⟨0, 0⟩ else
    let s := if q < 0 then (m, Nat.pow 2 q.natAbs) else (m * Nat.pow 2 q.natAbs, 1)
    let p := decimalPoint s.1 s.2
    let found := (List.range 18).findSome? fun k =>
      (neighbours s.1 s.2 p (k + 1)).find? fun x => ofDecimal x == finite m q
    found.getD ⟨0, 0⟩

end Binary64

namespace Decimal

def ofNat (n : Nat) : Decimal := ⟨n, 0⟩

/-- The digits with a point where it belongs and no exponent. -/
def positional (x : Decimal) : String :=
  let ds := Nat.toDigits 10 x.digits
  if x.digits == 0 then "0"
  else if 0 ≤ x.exponent then String.ofList (ds ++ List.replicate x.exponent.natAbs '0')
  else
    let places := x.exponent.natAbs
    let padded := List.replicate (places + 1 - ds.length) '0' ++ ds
    let whole := padded.take (padded.length - places)
    let part := Text.dropTrailing '0' (padded.drop (padded.length - places))
    if part.isEmpty then String.ofList whole else String.ofList (whole ++ '.' :: part)

/-- The number rounded to 53 bits, in the fewest digits that read back. -/
def shown (x : Decimal) : String :=
  match Binary64.ofDecimal x with
  | .infinite => "inf"
  | .finite m q => (Binary64.shortest m q).positional

/-- Whether the number is too large for 53 bits with a bounded exponent. -/
def isInfinite (x : Decimal) : Bool := Binary64.ofDecimal x == .infinite

/-- The rounded number when it is whole. -/
def whole? (x : Decimal) : Option Nat :=
  match Binary64.ofDecimal x with
  | .infinite => none
  | .finite m q =>
    if 0 ≤ q then some (m * Nat.pow 2 q.natAbs)
    else if m % Nat.pow 2 q.natAbs == 0 then some (m / Nat.pow 2 q.natAbs) else none

end Decimal
end InlineTemplates
