import InlineTemplates.Script.Printer.Function

/-! # Patterns, properties and the parts of tags in print -/

namespace InlineTemplates.Script.Style

/-- The code of a pattern without the comments before it. -/
def pattern (s : Style) (span : Span) : PatKind → List Printed → Doc
  | .name n optional, [type] =>
    [.text n] ++ (if optional then lit "?" else []) ++ s.typeAfter type
  | .array optional, [elements, type] =>
    let form (p : Printed) : Doc := if p.isAbsent then [] else p.whole
    lit "[" ++ s.list .arrayPattern span (elements.parts.map (·.entry form)) ++ lit "]" ++
      (if optional then lit "?" else []) ++ type.led (lit ": ") (·.code)
  | .object optional, [props, type] =>
    lit "\x7b" ++ s.list .objectPattern span (props.parts.map (·.entry (·.code))) ++ lit "\x7d" ++
      (if optional then lit "?" else []) ++ type.led (lit ": ") (·.code)
  | .rest, [arg, type] => lit "..." ++ arg.whole ++ s.typeAfter type
  | .default, [left, right] => left.whole ++ s.gap ++ lit "=" ++ s.gap ++ right.whole
  | .keyValue, [key, value] => key.code ++ lit ":" ++ s.gap ++ value.whole
  | .shorthand, [name, value] => name.code ++ value.led (s.gap ++ lit "=" ++ s.gap) Printed.whole
  | _, _ => []

/-- Whether the name of a member starts like a word. -/
def isWordKey (key : Printed) : Bool :=
  match key.kind with
  | .part (.string _ _) | .part .computed | .part (.privateName _) => false
  | _ => true

/-- The word before the name of an accessor, and the name. -/
def accessorKey (s : Style) (word : String) (key : Printed) : Doc :=
  lit word ++ s.gapIf (isWordKey key) ++ key.code

/-- Words before the name of a function in an object or a class. -/
def functionMarks (function : Printed) : Doc :=
  let (async, generator) := functionForm function
  (if async then lit "async " else []) ++ if generator then lit "*" else []

/-- The code of a property without the comments before it. -/
def property (s : Style) : PropKind → List Printed → Doc
  | .keyValue, [key, value] => key.code ++ lit ":" ++ s.gap ++ value.whole
  | .assign, [name, value] => name.code ++ lit "=" ++ value.whole
  | .getter, [key, _, body] =>
    s.accessorKey "get" key ++ s.gap ++ lit "()" ++ s.gap ++ body.code
  | .setter, [key, this, param, body] =>
    s.accessorKey "set" key ++ s.gap ++ lit "(" ++
      (if this.isAbsent then [] else this.whole ++ lit "," ++ s.gap) ++ param.whole ++ lit ")" ++
      body.code
  | .method, [key, function] =>
    functionMarks function ++ key.code ++ s.gap ++ s.functionRest function
  | _, _ => []

/-- A child, an attribute or the tag of an element. -/
def tagPart (s : Style) (span : Span) : PartKind → List Printed → Doc
  | .opening selfClosing, [name, attributes, typeArgs] =>
    let listed : ListStyle := { delimiter := none, dropsComments := true }
    lit "<" ++ name.code ++ typeArgs.code ++
      (if attributes.parts.isEmpty then [] else
        space ++ s.list listed span (attributes.parts.map (·.entry (·.code)))) ++
      (if selfClosing then lit "/" else []) ++ lit ">"
  | .closing, [name] => lit "</" ++ name.code ++ lit ">"
  | .openingFragment, _ => lit "<>"
  | .closingFragment, _ => lit "</>"
  | .tagAttribute, [name, value] => name.code ++ value.led (lit "=") (·.code)
  | .tagAttributeSpread, [e] => lit "\x7b..." ++ e.whole ++ lit "\x7d"
  | .exprContainer, [e] => lit "\x7b" ++ e.whole ++ lit "\x7d"
  | .spreadChild, [e] => lit "\x7b..." ++ e.whole ++ lit "\x7d"
  | .tagText value _, _ => [.text value]
  | .tagName n, _ => [.text n]
  | _, _ => []

end InlineTemplates.Script.Style
