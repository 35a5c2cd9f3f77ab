/-! # Stretches of a source text and their lines -/

namespace InlineTemplates

/-- A text as the list of its characters. -/
abbrev Text := List Char

/-- The characters of a literal. -/
abbrev text (s : String) : Text := s.toList

/-- How many bytes the text takes in UTF-8. -/
def byteLength (t : Text) : Nat := t.foldr (fun c n => c.utf8Size + n) 0

/-- A stretch of a source: the position of its first character and the position after its last.
Positions count characters from 1, so that 0 is free to mean "nowhere". -/
structure Span where
  lo : Nat
  hi : Nat
deriving DecidableEq, Repr, Inhabited

namespace Span

/-- The span of what stands in no source. -/
def nowhere : Span := ⟨0, 0⟩

def isNowhere (s : Span) : Bool := s.lo == 0 && s.hi == 0

theorem isNowhere_iff (s : Span) : s.isNowhere = true ↔ s = nowhere := by
  cases s
  simp [isNowhere, nowhere]

/-- The characters of `source` under the span. -/
def slice (s : Span) (source : Text) : Text := (source.drop (s.lo - 1)).take (s.hi - s.lo)

end Span

/-- A line and a column, both counted from 1. A character that takes four bytes in UTF-8 is two
columns wide. -/
structure Place where
  line : Nat
  column : Nat
deriving DecidableEq, Repr

namespace Place

/-- The place that stands for "unknown". -/
def unknown : Place := ⟨0, 0⟩

/-- How many columns a character takes. -/
def columnsOf (c : Char) : Nat := if c.utf8Size == 4 then 2 else 1

/-- The place after one more character. A line ends after a line feed, after a carriage return and
after the two together; no other character ends one. -/
def step (p : Place) (c : Char) (next : Option Char) : Place :=
  if c == '\n' || (c == '\r' && next != some '\n') then ⟨p.line + 1, 1⟩
  else ⟨p.line, p.column + columnsOf c⟩

/-- The place reached from `p` after `n` characters. -/
def walk (p : Place) : Text → Nat → Place
  | _, 0 => p
  | [], _ => p
  | c :: rest, n + 1 => walk (p.step c rest.head?) rest n

/-- The place of a position of `source`. -/
def of (source : Text) (position : Nat) : Place := walk ⟨1, 1⟩ source (position - 1)

end Place

/-- The text without a byte order mark at its front. -/
def withoutMark : Text → Text
  | '\uFEFF' :: rest => rest
  | source => source

theorem withoutMark_cons (c : Char) (rest : Text) (h : c ≠ '\uFEFF') :
    withoutMark (c :: rest) = c :: rest := by
  unfold withoutMark
  split
  · simp_all
  · rfl

end InlineTemplates
