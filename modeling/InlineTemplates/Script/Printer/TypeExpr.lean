import InlineTemplates.Script.Printer.Function

/-! # Types in print -/

namespace InlineTemplates.Script.Style

/-- The sign and the word of a mapped type's modifier. -/
def mappedSign (sign : Option MappedSign) (word : String) : Doc :=
  match sign with
  | none => []
  | some .plain => lit word
  | some .plus => lit ("+" ++ word)
  | some .minus => lit ("-" ++ word)

/-- The sign of a negative number. -/
def minusIf (negative : Bool) : Doc := if negative then lit "-" else []

def typeList (s : Style) (style : ListStyle) (span : Span) (ts : List Printed) : Doc :=
  s.list style span (ts.map (·.entry (·.code)))

/-- Type parameters, parameters and the type after a mark. -/
def signature (s : Style) (span : Span) (mark : Doc) : List Printed → Doc
  | [params, typeParams, type] =>
    typeParams.code ++ s.parameters span params.parts ++ type.led mark (·.code)
  | _ => []

/-- A signature after the word `new`. -/
def constructSignature (s : Style) (span : Span) (mark : Doc) : List Printed → Doc
  | [params, typeParams, type] =>
    lit "new" ++ (if typeParams.isAbsent then [] else space) ++
      s.signature span mark [params, typeParams, type]
  | _ => []

/-- The name of a member of an object type. -/
def memberKey (computed : Bool) (key : Printed) : Doc :=
  if computed then lit "[" ++ key.whole ++ lit "]" else key.whole

/-- The code of a type without the comments before it. -/
def typeCode (s : Style) (span : Span) : TypeKind → List Printed → Doc
  | .keyword w, _ => lit w
  | .this, _ => lit "this"
  | .function, ps => s.signature span (s.gap ++ lit "=>" ++ s.gap) ps
  | .constructor abstract, ps =>
    (if abstract then lit "abstract " else []) ++
      s.constructSignature span (s.gap ++ lit "=>" ++ s.gap) ps
  | .reference, [name, args] => name.code ++ args.code
  | .query, [name, args] => lit "typeof " ++ name.code ++ args.code
  | .object, members =>
    lit "\x7b" ++ s.list .members span (members.map (·.entry fun m => m.code ++ lit ";")) ++
      lit "\x7d"
  | .array, [t] => t.code ++ lit "[]"
  | .tuple, elements => lit "[" ++ s.typeList .tuple span elements ++ lit "]"
  | .optional, [t] => t.code ++ lit "?"
  | .rest, [t] => lit "..." ++ t.code
  | .union, ts => s.typeList .union span ts
  | .intersection, ts => s.typeList .intersection span ts
  | .conditional, [check, extended, yes, no] =>
    check.code ++ lit " extends " ++ extended.code ++ lit " ? " ++ yes.code ++ lit " : " ++ no.code
  | .infer, [param] => lit "infer " ++ param.code
  | .paren, [t] => lit "(" ++ t.code ++ lit ")"
  | .operator w, [t] => lit (w ++ " ") ++ t.code
  | .indexed, [t, index] => t.code ++ lit "[" ++ index.code ++ lit "]"
  | .mapped readonly optional, [param, nameType, type] =>
    let name := (param.parts[0]?.map (·.code)).getD []
    let constraint := (param.parts[1]?.map (·.code)).getD []
    let readonlyWord := if readonly.isSome then mappedSign readonly "readonly" ++ space else []
    lit "\x7b" ++ [.newline, .indent] ++ readonlyWord ++ lit "[" ++ name ++ lit " in " ++
      constraint ++ nameType.led (lit " as ") (·.code) ++ lit "]" ++ mappedSign optional "?" ++
      type.led (lit ": ") (·.code) ++ lit ";" ++ [.newline, .dedent] ++ lit "\x7d"
  | .string v raw, _ => [.text (Spelling.string s.dense v raw)]
  | .number negative v raw, _ => minusIf negative ++ [.text (Spelling.number s.dense v raw)]
  | .bigInt negative v raw, _ => minusIf negative ++ [.text (Spelling.bigInt s.dense v raw)]
  | .bool b, _ => lit (if b then "true" else "false")
  | .template, [types, quasis] => s.template (·.code) types quasis
  | .predicate asserts, [name, known] =>
    (if asserts then lit "asserts " else []) ++ name.code ++ known.led (lit " is ") (·.code)
  | .import, [arg, qualifier, args] =>
    lit "import(" ++ arg.code ++ lit ")" ++ qualifier.led (lit ".") (·.code) ++ args.code
  | _, _ => []

/-- The code of a member of an object type without the comments before it. -/
def typeElement (s : Style) (span : Span) : TypeElementKind → List Printed → Doc
  | .call, [params, type, typeParams] =>
    s.signature span (lit " : ") [params, typeParams, type]
  | .construct, [params, type, typeParams] =>
    s.constructSignature span (lit ": ") [params, typeParams, type]
  | .property readonly computed optional, [key, type] =>
    (if readonly then lit "readonly " else []) ++ memberKey computed key ++
      (if optional then lit "?" else []) ++ s.typeAfter type
  | .getter computed, [key, type] =>
    -- Comments before the colon are left out.
    lit "get " ++ memberKey computed key ++ lit "()" ++
      type.led (lit ":" ++ s.gap) fun t => t.parts.flatMap (·.code)
  | .setter computed, [key, param] =>
    lit "set " ++ memberKey computed key ++ lit "(" ++ param.code ++ lit ")"
  | .method computed optional, [key, params, type, typeParams] =>
    memberKey computed key ++ (if optional then lit "?" else []) ++
      s.signature span (lit ":" ++ s.gap) [params, typeParams, type]
  | .index readonly, [params, type] => s.indexSignature span readonly params type
  | _, _ => []

end InlineTemplates.Script.Style
