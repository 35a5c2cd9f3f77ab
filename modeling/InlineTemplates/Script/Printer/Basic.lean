import InlineTemplates.Script.Printer.Doc
import InlineTemplates.Script.Printer.Spelling
import InlineTemplates.Script.Tree

/-! # Printed parts and lists of them -/

namespace InlineTemplates.Script

/-- How code is printed: dense or with blanks and line ends, and what the printer may look up: the
text that spans refer to and the comments that come with it. -/
structure Style where
  dense : Bool := false
  source : Text := []
  comments : Comments := []
deriving Repr

namespace Style

/-- A blank that dense code omits. -/
def gap (s : Style) : Doc := if s.dense then [] else [.text [' ']]

/-- A line end that dense code omits. -/
def newline (s : Style) : Doc := if s.dense then [] else [.newline]

/-- A blank, which dense code keeps only if it is needed. -/
def gapIf (s : Style) (needed : Bool) : Doc := if needed then [.text [' ']] else s.gap

def indented (s : Style) (d : Doc) : Doc := if s.dense then d else [.indent] ++ d ++ [.dedent]

/-- Whether comments lead what starts at the position. -/
def hasLeading (s : Style) (position : Nat) : Bool :=
  s.comments.any fun c => c.side == .leading && c.position == position

end Style

/-- A word or a mark. -/
def lit (w : String) : Doc := Doc.ofString w

def space : Doc := lit " "

/-! ## Printed parts -/

/-- A tree with the code of each node. The code of a node starts with the comments before it and
has not yet the comments after it. The parts are those that a construct around the node may look
into. -/
inductive Printed where
  | mk (tree : Tree) (code : Doc) (parts : List Printed)

instance : Inhabited Printed := ⟨.mk .absent [] []⟩

namespace Printed

def tree : Printed → Tree
  | mk t _ _ => t

def code : Printed → Doc
  | mk _ d _ => d

def parts : Printed → List Printed
  | mk _ _ ps => ps

def kind (p : Printed) : Kind := p.tree.kind

def span (p : Printed) : Span := p.tree.span

def isAbsent (p : Printed) : Bool := p.tree.isAbsent

/-- The comments after the node. -/
def after (p : Printed) : Doc := Doc.after p.span.hi

/-- An expression or a pattern as part of another construct: comments after it follow. -/
def whole (p : Printed) : Doc := p.code ++ p.after

/-- The code of a part with something before it, or nothing if the part is missing. -/
def led (p : Printed) (mark : Doc) (form : Printed → Doc) : Doc :=
  if p.isAbsent then [] else mark ++ form p

end Printed

/-! ## Lists -/

/-- Whether a list ends with a comma. -/
inductive FinalComma where
  | never | asWritten | always
deriving DecidableEq, Repr

/-- How the elements of a list are set. -/
structure ListStyle where
  delimiter : Option String := some ","
  /-- One element a line. -/
  multiLine : Bool := false
  indented : Bool := false
  /-- Blanks after the opening and before the closing bracket. -/
  padded : Bool := false
  /-- Blanks between the brackets of an empty list. -/
  paddedEmpty : Bool := false
  spaced : Bool := true
  finalComma : FinalComma := .never
  /-- Dense code has no final comma. -/
  dropsFinalComma : Bool := false
  noFinalNewline : Bool := false
  nothingIfEmpty : Bool := false
  /-- Comments after an element that it does not print itself are left out. -/
  dropsComments : Bool := false

namespace ListStyle

/-- Arguments, parameters and declarators. -/
def commas : ListStyle := {}
def objectPattern : ListStyle :=
  { padded := true, finalComma := .asWritten, dropsFinalComma := true }
def arrayPattern : ListStyle := { finalComma := .asWritten, dropsFinalComma := true }
def properties : ListStyle := { multiLine := true, indented := true, padded := true }
def elements : ListStyle := { multiLine := true, indented := true, nothingIfEmpty := true }
def names : ListStyle := { padded := true, paddedEmpty := true }
def statements : ListStyle :=
  { delimiter := none, multiLine := true, indented := true, spaced := false }
def caseBody : ListStyle := { statements with noFinalNewline := true, nothingIfEmpty := true }
def moduleItems : ListStyle := { statements with indented := false, noFinalNewline := true }
def members : ListStyle := statements
def enumMembers : ListStyle := { multiLine := true, indented := true, spaced := false }
def union : ListStyle := { delimiter := some "|" }
def intersection : ListStyle := { delimiter := some "&" }
def tuple : ListStyle := { indented := true }

end ListStyle

/-- An element of a list: its span and its code. -/
structure Entry where
  span : Span
  code : Doc

def Printed.entry (p : Printed) (form : Printed → Doc) : Entry := ⟨p.span, form p⟩

namespace Style

/-- The mark between two elements. -/
def delimiter (s : Style) (l : ListStyle) : Doc :=
  match l.delimiter with
  | none => []
  | some "," => lit ","
  | some d => s.gap ++ lit d

/-- The code of an element and the comments after it, which a line end would cut off. -/
def entry (l : ListStyle) (e : Entry) : Doc :=
  e.code ++ if l.multiLine || l.dropsComments then [] else Doc.behind e.span.hi

/-- Whether the source has a comma before the last character of the span. -/
def writtenComma (s : Style) (parent : Span) : Bool :=
  let snippet := parent.slice s.source
  !parent.isNowhere && 3 ≤ byteLength snippet &&
    (Text.trim (snippet.take (snippet.length - 1))).getLast? == some ','

/-- The comma after the last element. -/
def finalComma (s : Style) (l : ListStyle) (parent : Span) : Doc :=
  let wanted := match l.finalComma with
    | .never => false
    | .always => true
    | .asWritten => s.writtenComma parent
  if wanted && !(s.dense && l.dropsFinalComma) then lit "," ++ s.gap else []

/-- What separates two elements. -/
def separator (s : Style) (l : ListStyle) : Doc :=
  s.delimiter l ++ if l.multiLine then s.newline else if l.spaced then s.gap else []

/-- All elements of a list. -/
def list (s : Style) (l : ListStyle) (parent : Span) (entries : List Entry) : Doc :=
  match entries with
  | [] =>
    if l.nothingIfEmpty then []
    else if l.multiLine then s.newline
    else if l.paddedEmpty then s.gap else []
  | _ =>
    let opening := if l.multiLine then s.newline else if l.padded then s.gap else []
    let closing := if l.multiLine then (if l.noFinalNewline then [] else s.newline)
      else if l.padded then s.gap else []
    let body := (s.separator l).intercalate (entries.map (entry l)) ++ s.finalComma l parent
    opening ++ (if l.indented then s.indented body else body) ++ closing

end Style
end InlineTemplates.Script
