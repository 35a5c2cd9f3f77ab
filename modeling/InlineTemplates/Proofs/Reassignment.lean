import InlineTemplates.Proofs.Sample
import InlineTemplates.Proofs.ValueNodes

/-! # Which writes to a tracked name the check finds

It finds those whose target is the bare name, in whatever depth of a pattern, and overlooks a name in
parentheses or assertions. -/

namespace InlineTemplates

open Script (Tree Kind)

/-! ## What a program writes to -/

/-- Parentheses and assertions: they stand for the expression inside. -/
def Script.Kind.isWrapper : Kind → Bool
  | .expr .paren | .expr .nonNull | .expr .asType | .expr .satisfies => true
  | .expr .typeAssertion | .expr .constAssertion | .expr .instantiation => true
  | _ => false

/-- A target is a name, bare or wrapped any number of times. A bare name is a pattern, except in an
update. -/
inductive Denotes : Tree → Text → Prop where
  | pattern {n optional s parts} : Denotes (.node (.pat (.name n optional)) s parts) n
  | name {n s parts} : Denotes (.node (.expr (.name n)) s parts) n
  | wrapped {kind s inner others n} (hkind : kind.isWrapper = true) (h : Denotes inner n) :
      Denotes (.node kind s (inner :: others)) n

/-- A node writes to a target by itself, apart from what stands inside it. -/
inductive WritesTo : Tree → Tree → Prop where
  | assign {op s left others target} (h : AimedAt target left) :
      WritesTo (.node (.expr (.assign op)) s (left :: others)) target
  | update {increment prefixed s target} :
      WritesTo (.node (.expr (.update increment prefixed)) s [target]) target
  | forIn {s head others target} (h : AimedAt target head) :
      WritesTo (.node (.stmt .forIn) s (head :: others)) target
  | forOf {await s head others target} (h : AimedAt target head) :
      WritesTo (.node (.stmt (.forOf await)) s (head :: others)) target

/-- Whether a target of `u` is a name and nothing else: a pattern, or the operand of an update. -/
def isBareTarget (u target : Tree) : Bool :=
  match target.kind, u.kind with
  | .pat (.name _ _), _ => true
  | .expr (.name _), .expr (.update _ _) => true
  | _, _ => false

/-- A tracked name is written to somewhere in the module. -/
def Reassigned (bindings : List Binding) (m : Tree) : Prop :=
  ∃ u ∈ m.nodes, ∃ target n, WritesTo u target ∧ Denotes target n ∧ Tracked bindings n

/-- A tracked name is written to through a wrapped target, or in a type. -/
def ReassignedUnseen (bindings : List Binding) (m : Tree) : Prop :=
  ∃ u ∈ m.nodes, ∃ target n, WritesTo u target ∧ Denotes target n ∧ Tracked bindings n ∧
    (isBareTarget u target = false ∨ u ∈ typeNodes m)

/-! ## What the check finds -/

section
variable {bindings : List Binding} {m u target : Tree} {n : Text}

theorem mem_valueNodes_of_writesTo (h : WritesTo u target) (hkind : target.kind.isErased = false) :
    target ∈ valueNodes u := by
  cases h with
  | assign h | forIn h | forOf h =>
    exact mem_valueNodes_of_part rfl List.mem_cons_self (mem_valueNodes_of_aimedAt h hkind)
  | update => exact mem_valueNodes_of_part rfl List.mem_cons_self (self_mem_valueNodes hkind)

theorem no_declaration_of_isWrapper {kind : Kind} {span : Span} {parts : List Tree}
    (h : kind.isWrapper = true) :
    isBareTarget u (.node kind span parts) = false ∧ occurrence? (.node kind span parts) = none ∧
      ownDeclaration? (.node kind span parts) = none := by
  unfold Kind.isWrapper at h
  split at h <;> first | exact ⟨rfl, rfl, rfl⟩ | cases h

theorem not_tracked_of_writesTo (hcheck : checkShadowing bindings m = .ok ())
    (hu : u ∈ valueNodes m) (hwrites : WritesTo u target) (hname : Denotes target n)
    (hbare : isBareTarget u target = true) : ¬ Tracked bindings n := by
  cases hname with
  | pattern =>
    have hmem := valueNodes_trans (mem_valueNodes_of_writesTo hwrites rfl) hu
    exact not_tracked_of_ownDeclaration hcheck hmem rfl
  | name =>
    cases hwrites with
    | update => exact not_tracked_of_ownDeclaration hcheck hu rfl
    | assign | forIn | forOf => cases hbare
  | wrapped hkind =>
    exact absurd hbare (Bool.eq_false_iff.mp (no_declaration_of_isWrapper hkind).1)

theorem ownDeclaration?_of_not_bare (hwrites : WritesTo u target) (hname : Denotes target n)
    (hbare : isBareTarget u target = false) :
    ownDeclaration? u = none ∧ ownDeclaration? target = none := by
  cases hname with
  | pattern => cases hbare
  | name =>
    cases hwrites with
    | update => cases hbare
    | assign | forIn | forOf => exact ⟨rfl, rfl⟩
  | wrapped hkind =>
    obtain ⟨-, hoccurrence, hown⟩ := no_declaration_of_isWrapper (u := u) hkind
    refine ⟨?_, hown⟩
    cases hwrites with
    | assign | forIn | forOf => rfl
    | update =>
      rw [ownDeclaration?]
      split
      · exact hoccurrence
      · rfl

end

theorem reassigned_iff_unseen {bindings : List Binding} {m : Tree}
    (hcheck : checkShadowing bindings m = .ok ()) :
    Reassigned bindings m ↔ ReassignedUnseen bindings m := by
  constructor
  · rintro ⟨u, hu, target, n, hwrites, hname, htracked⟩
    refine ⟨u, hu, target, n, hwrites, hname, htracked, ?_⟩
    rcases (mem_nodes_iff m).mp hu with hvalue | htype
    · left
      cases hbare : isBareTarget u target with
      | true =>
        exact absurd htracked (not_tracked_of_writesTo hcheck hvalue hwrites hname hbare)
      | false => rfl
    · exact .inr htype
  · rintro ⟨u, hu, target, n, hwrites, hname, htracked, -⟩
    exact ⟨u, hu, target, n, hwrites, hname, htracked⟩

/-- **What the check misses of writes.** When it passes, a tracked name is written to just when that
is done through a wrapped target or in a type, and it never looks at a wrapped target. -/
theorem reassignment_missed_iff (bindings : List Binding) (m : Tree) :
    (checkShadowing bindings m = .ok () →
      (Reassigned bindings m ↔ ReassignedUnseen bindings m)) ∧
    ∀ {u target : Tree} {n : Text}, WritesTo u target → Denotes target n →
      isBareTarget u target = false → ownDeclaration? u = none ∧ ownDeclaration? target = none :=
  ⟨reassigned_iff_unseen, ownDeclaration?_of_not_bare⟩

section
open Sample

def Sample.inParens (e : Tree) : Tree := .expr .paren .nowhere [e]

/-- `e as any` -/
def Sample.asAny (e : Tree) : Tree :=
  .expr .asType .nowhere [e, .type (.keyword "any") .nowhere []]

/-- `target = f` -/
def Sample.assignTo (target : Tree) : Tree :=
  .expr (.assign .plain) .nowhere [target, word (text "f")]

def Sample.inArray (target : Tree) : Tree :=
  .pat (.array false) .nowhere [.list [target], .absent]

/-- `target++` -/
def Sample.increment (target : Tree) : Tree := .expr (.update true false) .nowhere [target]

theorem reassigned_of_statement {e target : Tree} (hwrites : WritesTo e target)
    (hname : Denotes target tag) : Reassigned tracked (moduleOf [statement e]) := by
  have hmem : e ∈ (moduleOf [statement e]).nodes := by
    simp [moduleOf, statement, Tree.stmt, Tree.nodes, Tree.nodesAll, Tree.self_mem_nodes]
  exact ⟨e, hmem, target, tag, hwrites, hname, _, List.mem_singleton_self _, rfl⟩

/-- `(hbs) = f` passes. -/
theorem reassignment_missed_iff_inParens :
    let target := inParens (word tag)
    let m := moduleOf [statement (assignTo target)]
    (checkShadowing tracked m = .ok () ∧ (Reassigned tracked m ↔ ReassignedUnseen tracked m)) ∧
    (WritesTo (assignTo target) target ∧ Denotes target tag ∧
      isBareTarget (assignTo target) target = false) ∧
    ownDeclaration? (assignTo target) = none ∧ ownDeclaration? target = none := by
  obtain ⟨hiff, hblind⟩ :=
    reassignment_missed_iff tracked (moduleOf [statement (assignTo (inParens (word tag)))])
  exact ⟨⟨rfl, hiff rfl⟩, ⟨.assign .self, .wrapped rfl .name, rfl⟩,
    hblind (.assign .self) (.wrapped rfl .name) rfl⟩

/-- `(hbs) = f`, `(hbs)++`, `[(hbs)] = f` and `(hbs as any) = f` pass. -/
theorem reassignments_overlooked :
    let inside := inParens (word tag)
    let asserted := inParens (asAny (word tag))
    (checkShadowing tracked (moduleOf [statement (assignTo inside)]) = .ok () ∧
      Reassigned tracked (moduleOf [statement (assignTo inside)])) ∧
    (checkShadowing tracked (moduleOf [statement (increment inside)]) = .ok () ∧
      Reassigned tracked (moduleOf [statement (increment inside)])) ∧
    (checkShadowing tracked (moduleOf [statement (assignTo (inArray inside))]) = .ok () ∧
      Reassigned tracked (moduleOf [statement (assignTo (inArray inside))])) ∧
    checkShadowing tracked (moduleOf [statement (assignTo asserted)]) = .ok () ∧
      Reassigned tracked (moduleOf [statement (assignTo asserted)]) := by
  have hinside : Denotes (inParens (word tag)) tag := .wrapped rfl .name
  have hasserted : Denotes (inParens (asAny (word tag))) tag := .wrapped rfl (.wrapped rfl .name)
  refine ⟨⟨rfl, ?_⟩, ⟨rfl, ?_⟩, ⟨rfl, ?_⟩, rfl, ?_⟩
  · exact reassigned_of_statement (.assign .self) hinside
  · exact reassigned_of_statement .update hinside
  · exact reassigned_of_statement (.assign (.element (List.mem_singleton_self _) .self)) hinside
  · exact reassigned_of_statement (.assign .self) hasserted

end

end InlineTemplates
