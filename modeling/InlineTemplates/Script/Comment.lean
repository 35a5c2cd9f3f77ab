import InlineTemplates.Text.CharClass
import InlineTemplates.Text.Span

/-! # Comments and where they belong -/

namespace InlineTemplates.Script

/-- A comment: what stands between its marks. -/
structure Comment where
  block : Bool
  content : Text
deriving DecidableEq, Repr

/-- Whether the line ends in the comment or after it. -/
def Comment.endsLine (c : Comment) : Bool := !c.block || c.content.any Text.isLineEnd

/-- A comment belongs to the token that starts at a position, which it leads, or to the token that
ends at one, which it trails. -/
inductive CommentSide where
  | leading
  | trailing
deriving DecidableEq, Repr

/-- A comment with the side and the position of the token that it belongs to. -/
structure PlacedComment where
  side : CommentSide
  position : Nat
  comment : Comment
deriving DecidableEq, Repr

/-- The comments of a source in the order of their placing. -/
abbrev Comments := List PlacedComment

namespace Comments

/-- The comments on one side of a position, in order. -/
def on (cs : Comments) (side : CommentSide) (position : Nat) : List Comment :=
  (cs.filter fun c => c.side == side && c.position == position).map (·.comment)

/-- All comments but those on one side of a position. -/
def without (cs : Comments) (side : CommentSide) (position : Nat) : Comments :=
  cs.filter fun c => !(c.side == side && c.position == position)

end Comments
end InlineTemplates.Script
