import InlineTemplates.Proofs.Lexing.Words

/-! # The syntax of imports

An import is what it takes from another module and what it calls that. Each import is spelled as a
list of tokens, and the grammar reads these as its tree, whatever blanks and comments stand between
them. Imports with attributes are left out, and so are words that are spelled with escapes. -/

namespace InlineTemplates.Script

/-- What the other module calls something: a word or a string. -/
inductive Exported where
  | word (n : Text)
  | string (raw value : Text)
deriving DecidableEq

namespace Exported

def token : Exported → Token
  | word n => wordToken n
  | string raw value => .string value raw

def kind : Exported → PartKind
  | word n => .name n
  | string raw value => .string value (some raw)

def tree (e : Exported) : Tree := .ofPart e.kind .nowhere []

end Exported

/-! ## Names in braces -/

/-- A name in the braces of an import, which may get another name here. -/
structure NamedImport where
  imported : Exported
  alias? : Option Text := none
  typeOnly : Bool := false
deriving DecidableEq

namespace NamedImport

/-- What says the name here, where it is another one. -/
def aliasTokens : Option Text → List Token
  | some l => [wordToken (text "as"), wordToken l]
  | none => []

def tokens (i : NamedImport) : List Token :=
  (if i.typeOnly then [wordToken (text "type")] else []) ++ [i.imported.token] ++
    aliasTokens i.alias?

def tree (i : NamedImport) : Tree :=
  .ofPart (.importNamed i.typeOnly) .nowhere
    (match i.alias? with
      | some l => [nameTree l, i.imported.tree]
      | none => [i.imported.tree, .absent])

/-- Only a word may keep its name, and only words in an import of values are marked as types. -/
def Legal (dialect : Dialect) (inTypeOnly : Bool) (i : NamedImport) : Prop :=
  (match i.imported with
    | .word n => IsWordText n
    | .string raw value => IsString raw value ∧ i.alias?.isSome = true ∧ i.typeOnly = false) ∧
  (∀ l ∈ i.alias?, Declarable l) ∧
  (i.typeOnly = true → dialect.types = true ∧ inTypeOnly = false)

end NamedImport

/-! ## Imports -/

/-- What an import takes besides a default export. -/
inductive ImportList where
  | none
  | all (n : Text)
  | named (names : List NamedImport) (comma : Bool)
deriving DecidableEq

namespace ImportList

/-- Names with commas between them, and perhaps one behind the last. -/
def namesTokens (comma : Bool) : List NamedImport → List Token
  | [] => []
  | i :: more => i.tokens ++ (if !more.isEmpty || comma then [.mark .comma] else []) ++
    namesTokens comma more

def tokens : ImportList → List Token
  | none => []
  | all n => [.mark (.op .mul), wordToken (text "as"), wordToken n]
  | named names comma => .mark .braceOpen :: namesTokens comma names ++ [.mark .braceClose]

/-- The comma between a default name and more that is imported. -/
def comma (list : ImportList) : List Token := if list != .none then [.mark .comma] else []

def trees : ImportList → List Tree
  | none => []
  | all n => [.ofPart .importNamespace .nowhere [nameTree n]]
  | named names _ => names.map NamedImport.tree

def Legal (dialect : Dialect) (typeOnly : Bool) : ImportList → Prop
  | none => True
  | all n => Declarable n
  | named names _ => ∀ i ∈ names, i.Legal dialect typeOnly

end ImportList

def ImportPhase.word? : ImportPhase → Option Text
  | evaluation => none
  | source => some (text "source")
  | defer => some (text "defer")

/-- An import without attributes, each word of which is spelled without escapes. -/
structure ImportSyntax where
  typeOnly : Bool := false
  phase : ImportPhase := .evaluation
  default? : Option Text := none
  list : ImportList := .none
  raw : Text
  value : Text
deriving DecidableEq

namespace ImportSyntax

variable (i : ImportSyntax)

/-- Whether the import has a name or braces, which the word `from` follows. -/
def named : Bool := i.default?.isSome || i.list != .none

/-- The words that say what is imported and when. -/
def headTokens : List Token :=
  (if i.typeOnly then [wordToken (text "type")] else []) ++ i.phase.word?.toList.map wordToken

/-- The default name, and the comma behind it where more follows. -/
def defaultTokens : List Token :=
  i.default?.toList.map wordToken ++ if i.default?.isSome then i.list.comma else []

def restTokens : List Token :=
  (i.headTokens ++ i.defaultTokens) ++ (i.list.tokens ++
    ((if i.named then [wordToken (text "from")] else []) ++ [.string i.value i.raw]))

def tokens : List Token := wordToken (text "import") :: i.restTokens

def tree : Tree :=
  .item (.import i.typeOnly i.phase) .nowhere
    [.list (i.default?.toList.map (fun n => Tree.ofPart .importDefault .nowhere [nameTree n]) ++
        i.list.trees),
      .ofPart (.string i.value (some i.raw)) .nowhere [], .absent]

/-- An import is legal if its names are, if it has no words before a module that it takes no name
from, and if a default export that is called `from` leaves no doubt about the next word. Legal imports
are read; that all imports that are read are legal is not said. -/
structure Legal (dialect : Dialect) : Prop where
  types : i.typeOnly = true → dialect.types = true
  default : ∀ n ∈ i.default?, Declarable n ∧
    (n = text "from" → i.headTokens ≠ [] → i.list = .none)
  list : i.list.Legal dialect i.typeOnly
  bare : i.named = false → i.headTokens = []
  source : IsString i.raw i.value

theorem headTokens_eq_nil_iff : i.headTokens = [] ↔ i.typeOnly = false ∧ i.phase = .evaluation := by
  obtain ⟨typeOnly, phase, default?, list, raw, value⟩ := i
  cases typeOnly <;> cases phase <;> simp [headTokens, ImportPhase.word?]

theorem exists_of_headTokens_ne_nil (h : i.headTokens ≠ []) :
    ∃ n ts, i.headTokens = wordToken n :: ts := by
  obtain ⟨typeOnly, phase, default?, list, raw, value⟩ := i
  cases typeOnly with
  | true => exact ⟨_, _, rfl⟩
  | false =>
    cases phase with
    | evaluation => exact absurd rfl h
    | source | defer => exact ⟨_, _, rfl⟩

theorem named_eq_false_iff : i.named = false ↔ i.default? = none ∧ i.list = .none := by
  simp [named]

theorem restTokens_of_bare (h : i.named = false) :
    i.restTokens = i.headTokens ++ [.string i.value i.raw] := by
  obtain ⟨hdefault, hlist⟩ := i.named_eq_false_iff.mp h
  simp [restTokens, defaultTokens, hdefault, hlist, h, ImportList.tokens]

end ImportSyntax

namespace Parse

/-! ## Reading the words before the names -/

/-- The end of what stands before the braces, behind a default name. -/
def closeHead (name : Tree) (typeOnly : Bool) (phase : ImportPhase) : Parse ImportHead := do
  if !(← atName "from") then expect .comma
  return { name? := some name, typeOnly := typeOnly, phase := phase }

/-- What stands before the braces, behind a word that may say the phase. -/
def phasedHead (name : Tree) (typeOnly : Bool) (phase : ImportPhase) : Parse ImportHead := do
  if (← at? (.op .mul)) || (← at? .braceOpen) then
    return { typeOnly := typeOnly, phase := phase }
  if ← (atFreeWord <&&> notM (atName "from")) <||> nextIs (isName "from") then
    closeHead (← importedName) typeOnly phase
  else closeHead name typeOnly .evaluation

/-- What stands before the braces, behind a word that is no mark of a type. -/
def valueHead (name : Tree) (typeOnly : Bool) : Parse ImportHead := do
  if ← typed <&&> at? (.assign .plain) then
    return { name? := some name, typeOnly := typeOnly, equals := true }
  if isNamed "source" name then phasedHead name typeOnly .source
  else if isNamed "defer" name then phasedHead name typeOnly .defer
  else closeHead name typeOnly .evaluation

/-- What stands before the braces, behind its first word. -/
def headAfter (first : Tree) : Parse ImportHead := do
  let listed := (← at? (.op .mul)) || (← at? .braceOpen)
  if (← typed) && isNamed "type" first then
    if listed then return { typeOnly := true }
    if !(← atFreeWord) then valueHead first false
    else if ← notM (atName "from") <||> nextIs (isName "from") then
      valueHead (← importedName) true
    else if ← nextAt (.assign .plain) then valueHead (← anyName) true
    else valueHead first false
  else valueHead first false

theorem importHead_eq : importHead = (do
    if !(← atFreeWord) then return {}
    headAfter (← importedName)) := by
  unfold importHead
  refine congrArg (bind atFreeWord) (funext fun free => ?_)
  refine ite_congr rfl (fun _ => rfl) fun _ => ?_
  refine congrArg (bind importedName) (funext fun first => ?_)
  unfold headAfter
  refine congrArg (bind _) (funext fun mul => ?_)
  refine congrArg (bind _) (funext fun brace => ?_)
  extract_lets listed rest
  refine congrArg (bind _) (funext fun types => ?_)
  have hrest (name : Tree) (typeOnly : Bool) :
      rest (name, typeOnly) = valueHead name typeOnly := by
    refine congrArg (bind _) (funext fun equals => ?_)
    cases equals with
    | true => rfl
    | false =>
      cases isNamed "source" name with
      | true => rfl
      | false =>
        cases isNamed "defer" name with
        | true => rfl
        | false => rfl
  clear_value rest
  refine ite_congr rfl (fun _ => ?_) fun _ => ?_
  · refine ite_congr rfl (fun _ => rfl) fun _ => ?_
    refine congrArg (bind _) (funext fun free => ?_)
    refine ite_congr rfl (fun _ => ?_) fun _ => ?_
    · exact hrest _ _
    · refine congrArg (bind _) (funext fun other => ?_)
      refine ite_congr rfl (fun _ => ?_) fun _ => ?_
      · exact congrArg (bind _) (funext fun name => hrest name _)
      · refine congrArg (bind _) (funext fun equals => ?_)
        refine ite_congr rfl (fun _ => ?_) fun _ => ?_
        · exact congrArg (bind _) (funext fun name => hrest name _)
        · exact hrest _ _
  · exact hrest _ _

end Parse
end InlineTemplates.Script
