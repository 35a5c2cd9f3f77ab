import InlineTemplates.Transform

/-! # From source text to source text -/

namespace InlineTemplates

open Script (Dialect Program SyntaxErrorKind)

/-- What follows the last dot of a file name. -/
def extension? (fileName : Text) : Option Text :=
  if fileName.contains '.' then some (fileName.reverse.takeWhile (· != '.')).reverse else none

/-- The dialect of a file, by the end of its name. -/
def Script.Dialect.ofFileName (fileName : Text) : Dialect :=
  match (extension? fileName).map String.ofList with
  | some "ts" | some "mts" | some "cts" => .typed
  | some "tsx" => .typedTags
  | some "jsx" => .plainTags
  | _ => .plain

inductive CompileErrorKind where
  | parse (error : SyntaxErrorKind)
  | transform (error : TransformErrorKind)
deriving DecidableEq, Repr

def CompileErrorKind.message : CompileErrorKind → Text
  | parse e => text e.message
  | transform e => e.message

/-- Why a file could not be compiled, and where. -/
structure CompileError where
  kind : CompileErrorKind
  fileName : Text
  place : Place
deriving DecidableEq, Repr

namespace CompileError

/-- An error at the start of a span of the source. -/
def atSpan (kind : CompileErrorKind) (fileName source : Text) (span : Span) : CompileError :=
  ⟨kind, fileName, if span.isNowhere then .unknown else .of source span.lo⟩

def message (e : CompileError) : Text := e.kind.message

/-- The message with the place before it. -/
def display (e : CompileError) : Text :=
  e.fileName ++ text ":" ++ text (toString e.place.line) ++ text ":" ++
    text (toString e.place.column) ++ text ": " ++ e.message

end CompileError

/-- The text of a file after the transform. A file that imports no target comes back as it is;
otherwise comments are kept and the layout is not. -/
def Transform.file {σ : Type} (f : Transform σ) (fileName source : Text) :
    ExceptT CompileError (StateM σ) Text := do
  match Program.ofSource? (.ofFileName fileName) source with
  | .error e => throw (.atSpan (.parse e.kind) fileName (withoutMark source) e.span)
  | .ok program =>
    match ← (f.module program.source program.tree).run with
    | .error e => throw (.atSpan (.transform e.kind) fileName program.source e.span)
    | .ok (tree, summary) =>
      if summary.isNoop then return source
      return { program with tree := tree }.render

end InlineTemplates
