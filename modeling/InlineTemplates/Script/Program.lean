import InlineTemplates.Script.Grammar.Rules

/-! # Programs read from text -/

namespace InlineTemplates.Script

/-- A module as it was read: its text without a byte order mark, its tree and its comments. -/
structure Program where
  source : Text
  tree : Tree
  comments : Comments
deriving Repr

namespace Parse

/-- Reads a whole module. -/
def moduleTree : Parse Tree := do
  let g := Grammar.ofDepth (Grammar.depthOf (← get).source)
  let start ← here
  let hashbang ← match ← token? with
    | some (.hashbang content) => do
      advance
      pure (some content)
    | _ => pure none
  let items ← itemsUntilEnd g.moduleItem true false
  return .node (.module hashbang) (← spanFrom start) items

/-- Reads an expression. -/
def expression : Parse Tree := do
  (Grammar.ofDepth (Grammar.depthOf (← get).source)).expr

/-- The state before the first token. -/
def startOf (source : Text) : ParseState where
  source := source
  lexer := .ofSource source 1
  previous := ⟨1, 1⟩

/-- Runs a step on a source. The error that stopped it counts, else the first that was noted. -/
def onSource {α : Type} (step : Parse α) (context : Context) (source : Text) :
    Except SyntaxError (α × ParseState) :=
  let (result, after) := ((step.run context).run).run (startOf source)
  match result with
  | .error e => .error e
  | .ok a =>
    match after.lexer.record.errors with
    | e :: _ => .error e
    | [] => .ok (a, after)

end Parse

/-- The module with this text. Module code is strict. -/
def Program.ofSource? (dialect : Dialect) (text : Text) : Except SyntaxError Program := do
  let source := withoutMark text
  let context : Context := { dialect := dialect, moduleCode := true, strict := true }
  let (tree, after) ← Parse.onSource Parse.moduleTree context source
  return { source := source, tree := tree, comments := after.lexer.record.comments }

/-- The expression that a code fragment is, in parentheses and without spans. Parentheses that the
fragment closes early would leave something after the expression, which is an error. A fragment of
several expressions keeps its parentheses. -/
def fragment? (code : Text) : Except SyntaxError Tree := do
  let source := text "(" ++ code ++ text "\n)"
  let context : Context := { dialect := .plain }
  let (tree, _) ← Parse.onSource Parse.expression context source
  match tree with
  | .node (.expr .paren) span [inner] =>
    if span.hi != source.length + 1 then throw ⟨span, .singleExpression⟩
    return (if inner.kind == .expr .sequence then tree else inner).eraseSpans
  | t => throw ⟨t.span, .singleExpression⟩

end InlineTemplates.Script
