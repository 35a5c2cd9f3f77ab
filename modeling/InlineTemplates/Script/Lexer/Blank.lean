import InlineTemplates.Script.Lexer.State

/-! # Blanks and comments between tokens -/

namespace InlineTemplates.Script.Lexer

/-- Past blanks and line ends. -/
def skipBlanks (l : Lexer) : Lexer :=
  let run := l.rest.takeWhile fun c => Text.isBlank c || Text.isLineEnd c
  let l := if run.any Text.isLineEnd then { l with lineBreak := true } else l
  l.skip run.length

/-- Keeps a comment for the token that it leads, or gives it to the token before. -/
def place (l : Lexer) (forNext : Bool) (comment : Comment) : Lexer :=
  if forNext then { l with pending := l.pending ++ [comment] }
  else { l with placed := l.placed ++ [⟨.trailing, l.lastEnd, comment⟩] }

/-- Past the rest of the line, as a comment whose mark has `mark` characters. -/
def skipLine (l : Lexer) (mark : Nat) : Lexer :=
  let forNext := l.lineBreak || (l.last.map fun t => !t.takesTrailingLine).getD false
  let content := (l.rest.drop mark).takeWhile fun c => !Text.isLineEnd c
  ((l.skip mark).skip content.length).place forNext ⟨false, content⟩

/-- The content of a block comment and whether its end was found. -/
def blockContent : Text → Text × Bool
  | '*' :: '/' :: _ => ([], true)
  | c :: rest => let (content, closed) := blockContent rest; (c :: content, closed)
  | [] => ([], false)

/-- Past a block comment. One that is followed by a semicolon trails the token before it. -/
def skipBlock (l : Lexer) (c : Context) : Lexer :=
  let forNext := l.lineBreak || (l.last.map fun t => !t.takesTrailing).getD false
  let inner := l.skip 2
  let (content, closed) := blockContent inner.rest
  let broken := content.any Text.isLineEnd
  if closed then
    let l := inner.skip (content.length + 2)
    let l := if broken then { l with lineBreak := true } else l
    let l := l.skipBlanks
    let forNext := forNext && l.rest.head? != some ';'
    l.place forNext ⟨true, content⟩
  else
    let l := inner.skip content.length
    let l := if broken then { l with lineBreak := true } else l
    l.report c ⟨l.stop, l.stop⟩ .unterminatedBlockComment

/-- Past blanks and comments, up to `n` of them. -/
def skipSpaceUpTo (c : Context) : Nat → Lexer → Lexer
  | 0, l => l
  | n + 1, l =>
    let l := l.skipBlanks
    match l.rest with
    | '/' :: '/' :: _ => skipSpaceUpTo c n (l.skipLine 2)
    | '/' :: '*' :: _ => skipSpaceUpTo c n (l.skipBlock c)
    | _ => l

/-- Past blanks and comments. -/
def skipSpace (l : Lexer) (c : Context) : Lexer := skipSpaceUpTo c (l.rest.length + 1) l

/-- At the end of the source the waiting comments go to the last token, or lead the source when
there is no token, and all comments are handed over. -/
def handOver (l : Lexer) : Lexer :=
  let side : CommentSide := if l.lastEnd == l.origin then .leading else .trailing
  let placed := l.placed ++ l.pending.map (PlacedComment.mk side l.lastEnd)
  { l with
    pending := []
    placed := []
    record := { l.record with comments := l.record.comments ++ placed } }

end InlineTemplates.Script.Lexer
