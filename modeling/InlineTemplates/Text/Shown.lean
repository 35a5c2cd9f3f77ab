import InlineTemplates.Text.CharClass
import InlineTemplates.Text.UnseenRanges

/-! # Texts shown in quotes -/

namespace InlineTemplates.Text

def isUnseen (c : Char) : Bool :=
  c.toNat < 0x20 || c.toNat == 0x7F || (0x80 ≤ c.toNat && inRanges unseenRanges c.toNat)

/-- A character as it is shown between quotes. What would not be seen is given by its code point. -/
def shownChar (quote c : Char) : List Char :=
  if c == quote then ['\\', quote]
  else if c == '\\' then ['\\', '\\']
  else if c == '\n' then ['\\', 'n']
  else if c == '\r' then ['\\', 'r']
  else if c == '\t' then ['\\', 't']
  else if c == '\x00' then ['\\', '0']
  else if isUnseen c then ['\\', 'u', '\x7b'] ++ Nat.toDigits 16 c.toNat ++ ['\x7d']
  else [c]

/-- The text in double quotes, so that all of it can be seen. -/
def shown (t : List Char) : List Char := ['"'] ++ t.flatMap (shownChar '"') ++ ['"']

end InlineTemplates.Text
