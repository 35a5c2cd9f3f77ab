import InlineTemplates.Script.Operator

/-! # Dialects and the context of a construct -/

namespace InlineTemplates.Script

/-- What a program may contain besides plain modules: types, and elements written as tags. -/
structure Dialect where
  types : Bool
  tags : Bool
deriving DecidableEq, Repr

namespace Dialect

def plain : Dialect := ⟨false, false⟩
def plainTags : Dialect := ⟨false, true⟩
def typed : Dialect := ⟨true, false⟩
def typedTags : Dialect := ⟨true, true⟩

end Dialect

/-- What surrounds the construct that is being read. -/
structure Context where
  dialect : Dialect
  /-- A reading that may be given up: its errors do not count. -/
  trial : Bool := false
  moduleCode : Bool := false
  strict : Bool := false
  forInit : Bool := false
  /-- In the head of a loop that awaits its values. -/
  forAwait : Bool := false
  /-- Whether `in` is an operator here. -/
  allowIn : Bool := false
  inAsync : Bool := false
  inGenerator : Bool := false
  inStaticBlock : Bool := false
  continueAllowed : Bool := false
  breakAllowed : Bool := false
  inType : Bool := false
  /-- Whether angle marks are read as long as possible even in a type. -/
  longAngles : Bool := false
  ambient : Bool := false
  inConditional : Bool := false
  /-- A colon after the construct belongs to an enclosing conditional. -/
  colonAhead : Bool := false
  inClass : Bool := false
  inClassField : Bool := false
  inFunction : Bool := false
  inPlainFunction : Bool := false
  inParameters : Bool := false
  hasSuperClass : Bool := false
  inPropertyName : Bool := false
  forcedTags : Bool := false
  allowSuper : Bool := false
  ignoreElse : Bool := false
  noConditionalTypes : Bool := false
  allowUsing : Bool := false
  inTagExpr : Bool := false
deriving Repr

namespace Context

/-- Whether the keyword is reserved here; three keywords may be names. -/
def reservesKeyword (c : Context) : Keyword → Bool
  | .let => c.strict
  | .await => c.inAsync || c.inStaticBlock || c.strict
  | .yield => c.inGenerator || c.strict
  | _ => true

/-- Names reserved in strict code only. -/
def strictNames : List Text :=
  ["implements", "package", "protected", "interface", "private", "public"].map text

/-- Whether the name is reserved here. -/
def reservesName (c : Context) (n : Text) : Bool :=
  n == text "enum" || (c.strict && strictNames.contains n)

/-- Whether a word with these letters is reserved here. -/
def reserves (c : Context) (word : Text) : Bool :=
  match Keyword.ofText? word with
  | some k => c.reservesKeyword k
  | none => c.reservesName word

end Context
end InlineTemplates.Script
