import InlineTemplates.Text.IdentifierRanges

/-! # Classes of characters -/

namespace InlineTemplates.Text

/-- Whether a code point lies in one of the ranges. -/
def inRanges (ranges : List (Nat × Nat)) (n : Nat) : Bool :=
  ranges.any fun r => r.1 ≤ n && n ≤ r.2

def isLineEnd (c : Char) : Bool :=
  c == '\n' || c == '\r' || c == '\u2028' || c == '\u2029'

/-- Blanks other than line ends. -/
def isBlank (c : Char) : Bool :=
  let n := c.toNat
  n == 0x20 || n == 0x09 || n == 0x0B || n == 0x0C || n == 0x85 || n == 0xA0 || n == 0x1680 ||
  (0x2000 ≤ n && n ≤ 0x200A) || n == 0x202F || n == 0x205F || n == 0x3000 || n == 0xFEFF

def isLetter (c : Char) : Bool := ('a' ≤ c && c ≤ 'z') || ('A' ≤ c && c ≤ 'Z')

def isDigit (c : Char) : Bool := '0' ≤ c && c ≤ '9'

/-- Whether the character may start a name. -/
def isNameStart (c : Char) : Bool :=
  isLetter c || c == '$' || c == '_' || (0x80 ≤ c.toNat && inRanges nameStartRanges c.toNat)

/-- Whether the character may stand in a name after its start. The two joiners may. -/
def isNamePart (c : Char) : Bool :=
  isNameStart c || isDigit c || c == '\u200C' || c == '\u200D' ||
  (0x80 ≤ c.toNat && inRanges nameOnlyPartRanges c.toNat)

theorem isNamePart_of_isNameStart {c : Char} (h : isNameStart c = true) : isNamePart c = true := by
  simp [isNamePart, h]

/-- The value of a digit in a radix up to 16. -/
def digitValue? (radix : Nat) (c : Char) : Option Nat :=
  let v := if isDigit c then some (c.toNat - 48)
    else if 'a' ≤ c && c ≤ 'f' then some (c.toNat - 87)
    else if 'A' ≤ c && c ≤ 'F' then some (c.toNat - 55)
    else none
  v.filter (· < radix)

def isDigitOf (radix : Nat) (c : Char) : Bool := (digitValue? radix c).isSome

/-- The value of a run of digits. -/
def digitsValue (radix : Nat) (digits : List Char) : Nat :=
  digits.foldl (fun v c => v * radix + (digitValue? radix c).getD 0) 0

/-- What separates words at the ends of a text: every blank and line end but the byte order mark. -/
def isWhite (c : Char) : Bool := (isBlank c && c != '\uFEFF') || isLineEnd c

/-- The text without white space at its ends. -/
def trim (t : List Char) : List Char :=
  ((t.dropWhile isWhite).reverse.dropWhile isWhite).reverse

/-- The text without white space at its end. -/
def trimEnd (t : List Char) : List Char := (t.reverse.dropWhile isWhite).reverse

/-- The text without the character `c` at its end, however often it stands there. -/
def dropTrailing (c : Char) (t : List Char) : List Char := (t.reverse.dropWhile (· == c)).reverse

end InlineTemplates.Text
