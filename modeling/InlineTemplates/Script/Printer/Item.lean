import InlineTemplates.Script.Printer.Statement

/-! # Imports and exports in print -/

namespace InlineTemplates.Script.Style

/-- A name with another one after the word `as`, if there is another. -/
def renamed (first second : Printed) : Doc := first.code ++ second.led (lit " as ") (·.code)

/-- Where a module comes from, and its attributes. -/
def fromModule (s : Style) (src attributes : Printed) : Doc :=
  src.code ++ attributes.led (s.gap ++ lit "with" ++ s.gap) (·.code)

/-- What an import names: a default name, all names, or names in braces. -/
def importNames (s : Style) (span : Span) (specifiers : List Printed) : Doc :=
  let isNamed (p : Printed) : Bool := match p.kind with
    | .part (.importNamed _) => true
    | _ => false
  let named := specifiers.filter isNamed
  let others := (lit "," ++ s.gap).intercalate
    ((specifiers.filter fun p => !isNamed p).map fun p => p.code)
  if named.isEmpty then
    if others.isEmpty then [] else others ++ lit " from" ++ s.gap
  else
    (if others.isEmpty then [] else others ++ lit "," ++ s.gap) ++ lit "\x7b" ++
      s.list .names span (named.map (·.entry (·.code))) ++ lit "\x7d" ++ s.gap ++ lit "from" ++
      s.gap

/-- What an export names: a namespace, or names in braces. -/
def exportNames (s : Style) (span : Span) (specifiers : List Printed) : Doc × Bool :=
  let isSpace (p : Printed) : Bool := p.kind == .part .exportNamespaceName
  let named := specifiers.filter fun p => !isSpace p
  let spaces := (specifiers.filter isSpace).flatMap (·.code)
  let braces := lit "\x7b" ++ s.list .names span (named.map (·.entry (·.code))) ++ lit "\x7d"
  if spaces.isEmpty then (braces, true)
  else if named.isEmpty then (spaces, false)
  else (spaces ++ lit "," ++ s.gap ++ braces, true)

def startsWithDefault (specifiers : List Printed) : Bool :=
  match specifiers with
  | p :: _ => p.kind == .part .importDefault
  | [] => false

/-- The code of an import or export without the comments before it. -/
def item (s : Style) (span : Span) : ItemKind → List Printed → Doc
  | .import typeOnly phase, [specifiers, src, attributes] =>
    let phaseWord := match phase with
      | .evaluation => []
      | .source => lit " source"
      | .defer => lit " defer"
    lit "import" ++ (if typeOnly then lit " type" else []) ++ phaseWord ++
      s.gapIf (startsWithDefault specifiers.parts) ++ s.importNames span specifiers.parts ++
      s.fromModule src attributes ++ lit ";"
  | .exportDecl, [d] => lit "export " ++ declaration d
  | .exportNamed typeOnly, [specifiers, src, attributes] =>
    let (names, braced) := s.exportNames span specifiers.parts
    lit "export" ++ (if typeOnly then lit " type" else []) ++ s.gap ++ names ++
      src.led (s.gapIf (!braced) ++ lit "from" ++ s.gap) (fun p => s.fromModule p attributes) ++
      lit ";"
  | .exportDefaultDecl, [d] => lit "export default " ++ d.code
  | .exportDefaultExpr, [e] =>
    lit "export default" ++ s.gapIf e.tree.startsWord ++ e.whole ++ lit ";"
  | .exportAll typeOnly, [src, attributes] =>
    lit "export" ++ (if typeOnly then lit " type " else s.gap) ++ lit "*" ++ s.gap ++ lit "from" ++
      s.gap ++ s.fromModule src attributes ++ lit ";"
  | .importEquals exported typeOnly, [name, reference] =>
    (if exported then lit "export " else []) ++ lit "import " ++
      (if typeOnly then lit "type " else []) ++ name.code ++ s.gap ++ lit "=" ++ s.gap ++
      reference.code ++ lit ";"
  | .exportAssign, [e] => lit "export" ++ s.gap ++ lit "=" ++ s.gap ++ e.whole
  | .exportNamespace, [name] => lit "export = " ++ name.code
  | _, _ => []

/-- An item of a module, with what follows it. -/
def moduleItem (s : Style) (p : Printed) : Doc :=
  match p.kind with
  | .item _ => p.whole ++ s.newline
  | .stmt .block => p.whole
  | _ => s.statement p

/-- The items of a namespace in braces. -/
def moduleBlock (s : Style) (span : Span) (items : List Printed) : Doc :=
  lit "\x7b" ++ [.indent] ++ s.list .moduleItems span (items.map (·.entry s.moduleItem)) ++
    [.dedent] ++ lit "\x7d"

/-- A whole module. -/
def module (s : Style) (span : Span) (hashbang : Option Text) (items : List Printed) : Doc :=
  (match hashbang with
    | some content => [.text (['#', '!'] ++ content), .newline]
    | none => []) ++ items.flatMap s.moduleItem ++ Doc.after span.hi

end InlineTemplates.Script.Style
