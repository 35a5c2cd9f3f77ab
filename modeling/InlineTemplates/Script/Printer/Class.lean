import InlineTemplates.Script.Printer.Pattern

/-! # Members of classes in print -/

namespace InlineTemplates.Script.Style

def wordIf (present : Bool) (word : String) : Doc := if present then lit (word ++ " ") else []

def accessibility (m : Modifiers) : Doc :=
  match m.accessibility with
  | some a => lit (a.word ++ " ")
  | none => []

/-- A method with a private name, before its parameters. It shows no modifier but `static`. -/
def privateMethodHead (kind : MethodKind) (m : Modifiers) (key function : Printed) : Doc :=
  let word := match kind with
    | .method => functionMarks function
    | .getter => lit "get "
    | .setter => lit "set "
  wordIf m.static "static" ++ word ++ key.code

/-- A method from the word `static` on. -/
def methodHead (s : Style) (kind : MethodKind) (m : Modifiers) (key function : Printed) : Doc :=
  let (async, generator) := functionForm function
  let word := match kind with
    | .method => async || (!generator && isWordKey key)
    | _ => true
  (if m.static then lit "static" ++ s.gapIf word else []) ++ wordIf m.abstract "abstract" ++
    wordIf m.override "override" ++ (if async then lit "async " else []) ++
    (match kind with
      | .method => (if generator then lit "*" else []) ++ key.code
      | .getter => s.accessorKey "get" key
      | .setter => s.accessorKey "set" key) ++
    if m.optional then lit "?" else []

/-- Type and value of a field. -/
def fieldRest (s : Style) (m : Modifiers) (value type : Printed) : Doc :=
  let parens (p : Printed) : Doc := match p.kind with
    | .expr .sequence => lit "(" ++ p.whole ++ lit ")"
    | _ => p.whole
  (if m.optional then lit "?" else []) ++ (if m.definite then lit "!" else []) ++
    type.led (lit ": ") (·.code) ++ value.led (s.gap ++ lit "=" ++ s.gap) parens ++ lit ";"

/-- The code of a member without the comments before it. -/
def classMember (s : Style) (span : Span) : MemberKind → List Printed → Doc
  | .constructor m, [_, params, body] =>
    accessibility m ++ lit "constructor" ++ s.parameters span params.parts ++
      if body.isAbsent then lit ";" else body.code
  -- The comments before the name come first of all.
  | .method kind m, [key, function] =>
    Doc.before key.span.lo ++ accessibility m ++ s.methodHead kind m key function ++
      s.functionRest function
  | .privateMethod kind m, [key, function] =>
    privateMethodHead kind m key function ++ s.functionRest function
  | .property m, [key, value, type] =>
    wordIf m.declare "declare" ++ accessibility m ++ wordIf m.static "static" ++
      wordIf m.abstract "abstract" ++ wordIf m.override "override" ++
      wordIf m.readonly "readonly" ++ key.code ++ s.fieldRest m value type
  | .privateProperty m, [key, value, type] =>
    wordIf m.static "static" ++ wordIf m.override "override" ++ wordIf m.readonly "readonly" ++
      key.code ++ s.fieldRest m value type
  | .accessor m, [key, value, type] =>
    accessibility m ++ wordIf m.static "static" ++ wordIf m.abstract "abstract" ++
      wordIf m.override "override" ++ lit "accessor " ++ key.code ++ s.fieldRest m value type
  | .index readonly _, [params, type] => s.indexSignature span readonly params type
  | .staticBlock, [body] => lit "static" ++ body.code
  | .empty, _ => lit ";"
  | .parameterProperty m, [pat] =>
    accessibility m ++ wordIf m.override "override" ++ wordIf m.readonly "readonly" ++ pat.code
  | _, _ => []

end InlineTemplates.Script.Style
