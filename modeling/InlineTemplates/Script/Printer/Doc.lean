import InlineTemplates.Script.Comment

/-! # Documents: text with indentation and places for comments -/

namespace InlineTemplates.Script

/-- A piece of printed code. -/
inductive Piece where
  | text (t : Text)
  /-- The end of a line; there are no empty lines. -/
  | newline
  | indent
  | dedent
  /-- The comments on one side of a position go here, unless they went elsewhere before. -/
  | comments (side : CommentSide) (position : Nat) (apart : Bool)
deriving DecidableEq, Repr

abbrev Doc := List Piece

namespace Doc

/-- Words and marks as they are. -/
def ofString (s : String) : Doc := [.text s.toList]

/-- Where the comments before a position go. -/
def before (position : Nat) : Doc := [.comments .leading position false]

/-- Where the comments after a position go, apart from what they trail. -/
def after (position : Nat) : Doc := [.comments .trailing position true]

/-- Where the comments after a position go, right behind what they trail. -/
def behind (position : Nat) : Doc := [.comments .trailing position false]

end Doc

/-! ## Comments -/

/-- A comment in print, perhaps apart from what stands before it. The lines of a block comment stay
as they are. -/
def Comment.doc (apart : Bool) (c : Comment) : Doc :=
  let gap : Doc := if apart then [.text [' ']] else []
  let body : Doc := if c.block then [.text (['/', '*'] ++ c.content ++ ['*', '/', ' '])]
    else [.text (['/', '/'] ++ c.content), .newline]
  gap ++ body

/-- The document with the comments at their places. Each comment is used once. -/
def Doc.withComments : Comments → Doc → Doc
  | _, [] => []
  | cs, .comments side position apart :: rest =>
    (cs.on side position).flatMap (Comment.doc apart) ++
      withComments (cs.without side position) rest
  | cs, p :: rest => p :: withComments cs rest

/-- The places for comments that a document has, in order. -/
def Doc.places (d : Doc) : List (CommentSide × Nat) :=
  d.filterMap fun
    | .comments side position _ => some (side, position)
    | _ => none

/-! ## Layout -/

/-- How far the lines are indented, and whether a line was just begun. -/
structure Margin where
  depth : Nat := 0
  atStart : Bool := true
deriving DecidableEq, Repr

namespace Margin

/-- The text with the indentation that it needs, and the margin after it. -/
def put (m : Margin) (t : Text) : Text × Margin :=
  if t.isEmpty then ([], m)
  else if m.atStart then (List.replicate (4 * m.depth) ' ' ++ t, { m with atStart := false })
  else (t, m)

end Margin

/-- The text of a document. Places for comments are empty. -/
def Doc.layout : Margin → Doc → Text
  | _, [] => []
  | m, .text t :: rest =>
    let (out, m) := m.put t
    out ++ layout m rest
  | m, .newline :: rest =>
    if m.atStart then layout m rest else '\n' :: layout { m with atStart := true } rest
  | m, .indent :: rest => layout { m with depth := m.depth + 1 } rest
  | m, .dedent :: rest => layout { m with depth := m.depth - 1 } rest
  | m, .comments _ _ _ :: rest => layout m rest

/-- The text of a document that stands at the front of a page, with comments. -/
def Doc.render (cs : Comments) (d : Doc) : Text := (d.withComments cs).layout {}

end InlineTemplates.Script
