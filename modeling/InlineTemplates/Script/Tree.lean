import InlineTemplates.Script.Operator
import InlineTemplates.Text.Decimal

/-! # Syntax trees

A program is a tree of one shape: each node has a kind, a span and its parts in the order in which
a traversal visits them. What a node says besides its parts is in its kind. A part that is missing
is an `absent` node and a list of parts is a `list` node, so a kind fixes the number of its
parts. -/

namespace InlineTemplates.Script

inductive VarKind where
  | var | let | const
deriving DecidableEq, Repr

inductive MethodKind where
  | method | getter | setter
deriving DecidableEq, Repr

/-- Who may use a member of a class. -/
inductive Accessibility where
  | everyone | heirs | owner
deriving DecidableEq, Repr

def Accessibility.word : Accessibility → String
  | everyone => "public"
  | heirs => "protected"
  | owner => "private"

/-- The words before a member of a class. -/
structure Modifiers where
  accessibility : Option Accessibility := none
  declare : Bool := false
  static : Bool := false
  abstract : Bool := false
  override : Bool := false
  readonly : Bool := false
  optional : Bool := false
  definite : Bool := false
deriving DecidableEq, Repr

/-- A mapped type's `readonly` or `?`: plain, with a plus or with a minus. -/
inductive MappedSign where
  | plain | plus | minus
deriving DecidableEq, Repr

/-- When an import is carried out. -/
inductive ImportPhase where
  | evaluation | source | defer
deriving DecidableEq, Repr

inductive ExprKind where
  | this
  | array | object
  | function
  | unary (op : UnaryOp)
  | update (increment prefixed : Bool)
  | binary (op : BinaryOp)
  | assign (op : AssignOp)
  | member | superMember | index | superIndex
  | conditional
  | call | new (withArgs : Bool)
  | sequence
  | name (n : Text)
  | string (value : Text) (raw : Option Text)
  | number (value : Decimal) (raw : Option Text)
  | bigInt (value : Nat) (raw : Option Text)
  | bool (value : Bool)
  | null
  | regex (body flags : Text)
  | template
  | tagged
  | arrow (async : Bool) (block : Bool)
  | classExpr
  | yield (delegate : Bool)
  | newTarget | importMeta
  | await
  | paren
  | element | fragment | tagMember | tagNamespaced | tagEmpty
  | typeAssertion | constAssertion | nonNull | asType | instantiation | satisfies
  | privateName (n : Text)
  | chain (optional : Bool)
  | chainCall
  | invalid
deriving DecidableEq, Repr

inductive PatKind where
  /-- A name that is declared or assigned. -/
  | name (n : Text) (optional : Bool)
  | array (optional : Bool) | object (optional : Bool)
  | rest
  | default
  | keyValue
  | shorthand
  | invalid
deriving DecidableEq, Repr

inductive StmtKind where
  | block | empty | debugger
  | with | return | labelled | break | continue | if | switch | throw | try
  | while | doWhile | for | forIn | forOf (await : Bool)
  | expr
  | var (kind : VarKind) (declare : Bool)
  | using (await : Bool)
  | function (declare : Bool) | classDecl (declare : Bool)
  | interface (declare : Bool) | typeAlias (declare : Bool)
  | enum (declare const : Bool)
  | namespace (declare global : Bool)
deriving DecidableEq, Repr

inductive ItemKind where
  | import (typeOnly : Bool) (phase : ImportPhase)
  | exportDecl
  | exportNamed (typeOnly : Bool)
  | exportDefaultDecl | exportDefaultExpr
  | exportAll (typeOnly : Bool)
  | importEquals (exported typeOnly : Bool)
  | exportAssign | exportNamespace
deriving DecidableEq, Repr

inductive TypeKind where
  | keyword (word : String)
  | this
  | function | constructor (abstract : Bool)
  | reference | query | object | array | tuple | optional | rest
  | union | intersection | conditional | infer | paren
  | operator (word : String)
  | indexed
  | mapped (readonly optional : Option MappedSign)
  | string (value : Text) (raw : Option Text)
  | number (negative : Bool) (value : Decimal) (raw : Option Text)
  | bigInt (negative : Bool) (value : Nat) (raw : Option Text)
  | bool (value : Bool)
  | template
  | predicate (asserts : Bool)
  | import
deriving DecidableEq, Repr

inductive TypeElementKind where
  | call | construct
  | property (readonly computed optional : Bool)
  | getter (computed : Bool) | setter (computed : Bool)
  | method (computed optional : Bool)
  | index (readonly : Bool)
deriving DecidableEq, Repr

inductive MemberKind where
  | constructor (modifiers : Modifiers)
  | method (kind : MethodKind) (modifiers : Modifiers)
  | privateMethod (kind : MethodKind) (modifiers : Modifiers)
  | property (modifiers : Modifiers)
  | privateProperty (modifiers : Modifiers)
  | accessor (modifiers : Modifiers)
  | index (readonly static : Bool)
  | staticBlock
  | empty
  /-- A parameter that declares a property. -/
  | parameterProperty (modifiers : Modifiers)
deriving DecidableEq, Repr

inductive PropKind where
  | keyValue | assign | getter | setter | method
deriving DecidableEq, Repr

/-- Parts that are no construct of their own. -/
inductive PartKind where
  /-- A name that stands for itself: a property, a label, a declared name, a type's name. -/
  | name (n : Text)
  | privateName (n : Text)
  | string (value : Text) (raw : Option Text)
  | number (value : Decimal) (raw : Option Text)
  | bigInt (value : Nat) (raw : Option Text)
  | computed
  /-- An argument, element or property with dots before it. -/
  | spread
  | super | importCallee (phase : ImportPhase)
  | quasi (tail : Bool) (cooked : Option Text) (raw : Text)
  /-- Parameters and body of a function, without its name. -/
  | function (async generator : Bool)
  | param
  | classBody (abstract : Bool)
  | declarator (definite : Bool)
  | case
  | catchClause
  | importNamed (typeOnly : Bool) | importDefault | importNamespace
  | exportName (typeOnly : Bool) | exportNamespaceName | exportDefaultName
  | opening (selfClosing : Bool) | closing | openingFragment | closingFragment
  | tagAttribute | tagAttributeSpread | exprContainer | spreadChild
  | tagName (n : Text)
  | tagText (value raw : Text)
  | annotatedType | typeParams | typeParam (isIn isOut isConst : Bool) | typeArgs
  | qualified
  | exprWithTypeArgs
  | tupleElement
  | interfaceBody | enumMember | moduleBlock | externalModule
deriving DecidableEq, Repr

/-- The kind of a node. -/
inductive Kind where
  | absent | list
  | module (hashbang : Option Text)
  | expr (k : ExprKind)
  | pat (k : PatKind)
  | stmt (k : StmtKind)
  | item (k : ItemKind)
  | type (k : TypeKind)
  | typeElement (k : TypeElementKind)
  | member (k : MemberKind)
  | prop (k : PropKind)
  | part (k : PartKind)
deriving DecidableEq, Repr

/-- Tagged templates and calls. -/
def Kind.isApplied : Kind → Bool
  | .expr .tagged | .expr .call => true
  | _ => false

inductive Tree where
  | node (kind : Kind) (span : Span) (parts : List Tree)
deriving Repr

instance : Inhabited Tree := ⟨.node .absent .nowhere []⟩

namespace Tree

def kind : Tree → Kind
  | node k _ _ => k

def span : Tree → Span
  | node _ s _ => s

def parts : Tree → List Tree
  | node _ _ ps => ps

@[simp] theorem kind_node (k : Kind) (s : Span) (ps : List Tree) : (node k s ps).kind = k := rfl
@[simp] theorem span_node (k : Kind) (s : Span) (ps : List Tree) : (node k s ps).span = s := rfl
@[simp] theorem parts_node (k : Kind) (s : Span) (ps : List Tree) : (node k s ps).parts = ps := rfl

/-- A missing part. -/
def absent : Tree := node .absent .nowhere []

def isAbsent : Tree → Bool
  | node .absent _ _ => true
  | _ => false

/-- The parts of a list. -/
def list (ts : List Tree) : Tree := node .list .nowhere ts

/-- The part or a missing one. -/
def ofOption (t : Option Tree) : Tree := t.getD absent

/-- The part of a number, missing when there is none. -/
def part (t : Tree) (i : Nat) : Tree := t.parts.getD i absent

/-- The elements of a list part. -/
def items (t : Tree) (i : Nat) : List Tree := (t.part i).parts

def expr (k : ExprKind) (s : Span) (ps : List Tree) : Tree := node (.expr k) s ps
def pat (k : PatKind) (s : Span) (ps : List Tree) : Tree := node (.pat k) s ps
def stmt (k : StmtKind) (s : Span) (ps : List Tree) : Tree := node (.stmt k) s ps
def item (k : ItemKind) (s : Span) (ps : List Tree) : Tree := node (.item k) s ps
def type (k : TypeKind) (s : Span) (ps : List Tree) : Tree := node (.type k) s ps
def typeElement (k : TypeElementKind) (s : Span) (ps : List Tree) : Tree :=
  node (.typeElement k) s ps
def member (k : MemberKind) (s : Span) (ps : List Tree) : Tree := node (.member k) s ps
def prop (k : PropKind) (s : Span) (ps : List Tree) : Tree := node (.prop k) s ps
def ofPart (k : PartKind) (s : Span) (ps : List Tree) : Tree := node (.part k) s ps

/-- The same node with another span. -/
def withSpan (t : Tree) (s : Span) : Tree := node t.kind s t.parts

def isExpr (t : Tree) : Bool := match t.kind with
  | .expr _ => true
  | _ => false

/-! ## Equality -/

mutual
/-- Whether two trees are equal. -/
def beq : Tree → Tree → Bool
  | node k s ps, node k' s' ps' => decide (k = k') && decide (s = s') && beqAll ps ps'

def beqAll : List Tree → List Tree → Bool
  | [], [] => true
  | t :: ts, u :: us => beq t u && beqAll ts us
  | _, _ => false
end

mutual
theorem beq_iff : ∀ t u : Tree, beq t u = true ↔ t = u
  | node k s ps, node k' s' ps' => by
    simp [beq, beqAll_iff ps ps', and_assoc]

theorem beqAll_iff : ∀ ts us : List Tree, beqAll ts us = true ↔ ts = us
  | [], [] => by simp [beqAll]
  | [], _ :: _ => by simp [beqAll]
  | _ :: _, [] => by simp [beqAll]
  | t :: ts, u :: us => by simp [beqAll, beq_iff t u, beqAll_iff ts us]
end

instance : DecidableEq Tree := fun t u => decidable_of_iff _ (beq_iff t u)

/-! ## Spans -/

mutual
/-- The tree with every span replaced by "nowhere". -/
def eraseSpans : Tree → Tree
  | node k _ ps => node k .nowhere (eraseSpansAll ps)

def eraseSpansAll : List Tree → List Tree
  | [] => []
  | t :: ts => eraseSpans t :: eraseSpansAll ts
end

theorem eraseSpansAll_eq_map (ts : List Tree) : eraseSpansAll ts = ts.map eraseSpans := by
  induction ts with
  | nil => rfl
  | cons t ts ih => simp [eraseSpansAll, ih]

mutual
theorem eraseSpans_eraseSpans : ∀ t : Tree, t.eraseSpans.eraseSpans = t.eraseSpans
  | node k s ps => by simp [eraseSpans, eraseSpansAll_eraseSpansAll ps]

theorem eraseSpansAll_eraseSpansAll :
    ∀ ts : List Tree, eraseSpansAll (eraseSpansAll ts) = eraseSpansAll ts
  | [] => rfl
  | t :: ts => by simp [eraseSpansAll, eraseSpans_eraseSpans t, eraseSpansAll_eraseSpansAll ts]
end

/-! ## Nodes -/

mutual
/-- All nodes of the tree, each before its parts. -/
def nodes : Tree → List Tree
  | t@(node _ _ ps) => t :: nodesAll ps

def nodesAll : List Tree → List Tree
  | [] => []
  | t :: ts => nodes t ++ nodesAll ts
end

theorem nodesAll_eq_flatMap (ts : List Tree) : nodesAll ts = ts.flatMap nodes := by
  induction ts with
  | nil => rfl
  | cons t ts ih => simp [nodesAll, ih]

theorem self_mem_nodes (t : Tree) : t ∈ t.nodes := by
  cases t
  simp [nodes]

theorem mem_nodes_node {kind : Kind} {span : Span} {parts : List Tree} {u : Tree} :
    u ∈ (node kind span parts).nodes ↔ u = node kind span parts ∨ ∃ p ∈ parts, u ∈ p.nodes := by
  rw [nodes, List.mem_cons, nodesAll_eq_flatMap, List.mem_flatMap]

/-! ## Induction -/

/-- What a node has if its parts have it, every tree has. -/
@[elab_as_elim]
theorem induct {motive : Tree → Prop}
    (node : ∀ kind span parts, (∀ p ∈ parts, motive p) → motive (.node kind span parts)) :
    ∀ t, motive t
  | .node kind span parts => node kind span parts fun p _ => induct node p

end Tree
end InlineTemplates.Script
