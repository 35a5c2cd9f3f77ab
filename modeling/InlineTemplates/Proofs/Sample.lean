import InlineTemplates.Transform

/-! # A small module and its transform

Trees for a module that imports a tag `hbs` from the standard target, and a transform that answers
each template with a string literal of it. Statements about all modules are tried on them. -/

namespace InlineTemplates.Sample

open Script (Tree Program)

def tag : Text := text "hbs"

def word (n : Text) : Tree := .expr (.name n) .nowhere []

def partWord (n : Text) : Tree := .ofPart (.name n) .nowhere []

def literal (value : Text) : Tree := .expr (.string value none) .nowhere []

def callOf (callee : Text) (arguments : List Tree) (typeArgs : Tree) (span : Span) : Tree :=
  .expr .call span [word callee, .list arguments, typeArgs]

def statement (e : Tree) : Tree := .stmt .expr .nowhere [e]

def tagImport : Tree :=
  .item (.import false .evaluation) ⟨1, 46⟩
    [.list [.ofPart .importDefault .nowhere [partWord tag]],
      .ofPart (.string Target.standard.source none) .nowhere [], .absent]

def moduleOf (items : List Tree) : Tree := .node (.module none) .nowhere items

def tracked : List Binding := [⟨Target.standard.source, tag⟩]

def transform : Transform Unit where
  precompiler := fun template => return .expression (literal template)
  targets := [Target.standard]

/-- `hbs('a')` -/
def plainUse : Tree := callOf tag [literal (text "a")] .absent ⟨47, 55⟩

/-- `hbs<{ [hbs('b')]: string }>('a')`: a use with another one in its type arguments. -/
def typedUse : Tree :=
  callOf tag [literal (text "a")]
    (.ofPart .typeArgs .nowhere [.type .object .nowhere
      [.typeElement (.property false true false) .nowhere
        [callOf tag [literal (text "b")] .absent ⟨53, 61⟩,
          .ofPart .annotatedType .nowhere [.type (.keyword "string") .nowhere []]]]])
    ⟨47, 77⟩

/-- A transform that answers every template with the same code. -/
def answering (code : Text) : Transform Unit where
  precompiler := fun _ => return .code code
  targets := [Target.standard]

/-! ## A file -/

/-- An import of the standard target and one use of it as an initialiser. -/
def hostSource : Text :=
  text "import hbs from 'htmlbars-inline-precompile';\nconst x = hbs('t');"

/-- An import of the standard target as it is read from text. -/
def writtenImport : Tree :=
  .item (.import false .evaluation) ⟨1, 46⟩
    [.list [.ofPart .importDefault ⟨8, 11⟩ [.ofPart (.name tag) ⟨8, 11⟩ []]],
      .ofPart (.string Target.standard.source (some (text "'htmlbars-inline-precompile'")))
        ⟨17, 45⟩ [],
      .absent]

/-- `const x = …` -/
def initialised (value : Tree) : Tree :=
  .stmt (.var .const false) ⟨47, 66⟩
    [.ofPart (.declarator false) ⟨53, 65⟩
      [.pat (.name (text "x") false) ⟨53, 54⟩ [.absent], value]]

def hostUse : Tree :=
  .expr .call ⟨57, 65⟩
    [.expr (.name tag) ⟨57, 60⟩ [],
      .list [.expr (.string (text "t") (some (text "'t'"))) ⟨61, 64⟩ []], .absent]

def hostOf (value : Tree) : Tree := .node (.module none) ⟨1, 66⟩ [initialised value]

def host : Program where
  source := hostSource
  tree := .node (.module none) ⟨1, 66⟩ [writtenImport, initialised hostUse]
  comments := []

end InlineTemplates.Sample
