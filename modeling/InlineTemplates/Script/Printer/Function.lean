import InlineTemplates.Script.Printer.Basic
import InlineTemplates.Script.Printer.Word

/-! # Functions, blocks and templates in print -/

namespace InlineTemplates.Script.Style

/-- The code of a type after a colon. -/
def typeAfter (s : Style) (type : Printed) : Doc := type.led (lit ":" ++ s.gap) (·.code)

/-- Parameters in parentheses. -/
def parameters (s : Style) (parent : Span) (params : List Printed) : Doc :=
  lit "(" ++ s.list .commas parent (params.map (·.entry (·.code))) ++ lit ")"

/-- An index signature. That of a class shows no word `static`. -/
def indexSignature (s : Style) (span : Span) (readonly : Bool) (params type : Printed) : Doc :=
  (if readonly then lit "readonly" ++ s.gap else []) ++ lit "[" ++
    s.list .commas span (params.parts.map (·.entry (·.code))) ++ lit "]" ++ s.typeAfter type

/-- A function after its name. -/
def functionRest (s : Style) : Printed → Doc
  | .mk (.node _ span _) _ [params, body, typeParams, type] =>
    typeParams.code ++ s.parameters span params.parts ++ s.typeAfter type ++
      (if body.isAbsent then lit ";" else s.gap ++ body.code)
  | _ => []

/-- Whether a function is async and whether it is a generator. -/
def functionForm (p : Printed) : Bool × Bool :=
  match p.kind with
  | .part (.function async generator) => (async, generator)
  | _ => (false, false)

/-- The word `function` and a name, with `star` between the star of a generator and the name. -/
def functionHead (star : Doc) (name function : Printed) : Doc :=
  let (async, generator) := functionForm function
  (if async then lit "async " else []) ++ lit "function" ++ (if generator then lit "*" else []) ++
    name.led (if generator then star else space) (·.code)

/-! ## Statements in braces -/

/-- Whether no comment stands before the closing brace. -/
def bare (s : Style) (span : Span) : Bool := span.isNowhere || !s.hasLeading (span.hi - 1)

/-- A statement in a list, with the comments after it. A block ends with its brace. -/
def statement (s : Style) (p : Printed) : Doc :=
  match p.kind with
  | .stmt .block => p.code
  | .stmt (.var _ _) => p.code ++ lit ";" ++ p.after ++ s.newline
  | _ => p.whole ++ s.newline

/-- A block of statements. -/
def block (s : Style) (span : Span) (body : List Printed) : Doc :=
  let empty := body.isEmpty && s.bare span
  lit "\x7b" ++ (if empty then [] else s.list .statements span (body.map (·.entry s.statement))) ++
    (if span.isNowhere then [] else Doc.before (span.hi - 1)) ++ lit "\x7d"

/-! ## Templates -/

/-- The stretches of a template and the code between them. -/
def interleaved (quasi : Printed → Doc) (inner : Printed → Doc) : List Printed → List Printed → Doc
  | q :: qs, e :: es =>
    quasi q ++ lit "$\x7b" ++ inner e ++ lit "\x7d" ++ interleaved quasi inner qs es
  | qs, _ => qs.flatMap quasi

def quasi (s : Style) (p : Printed) : Doc :=
  match p.kind with
  | .part (.quasi _ _ raw) => [.text (Spelling.template s.dense raw)]
  | _ => []

/-- A stretch of a template with a tag, which may look at its spelling. -/
def taggedQuasi (p : Printed) : Doc :=
  match p.kind with
  | .part (.quasi _ _ raw) => [.text raw]
  | _ => []

def template (s : Style) (inner : Printed → Doc) (exprs quasis : Printed) : Doc :=
  lit "`" ++ interleaved s.quasi inner quasis.parts exprs.parts ++ lit "`"

/-- A template after its tag. -/
def taggedTemplate : Printed → Doc
  | .mk (.node _ span _) _ [exprs, quasis] =>
    Doc.before span.lo ++ lit "`" ++
      interleaved taggedQuasi Printed.whole quasis.parts exprs.parts ++ lit "`"
  | _ => []

end InlineTemplates.Script.Style
