import InlineTemplates.Script.Tree

/-! # Well-formed trees

What a kind says about the parts of its nodes, as far as the uses of a name need it: names, string
literals and the strings of templates have none, and a call and a tagged template have the parts that
they are written with. -/

namespace InlineTemplates.Script

namespace Tree

def isTypeArgs (t : Tree) : Bool := t.kind == .part .typeArgs

def isQuasi (t : Tree) : Bool := match t.kind with
  | .part (.quasi _ _ _) => true
  | _ => false

theorem of_isAbsent {t : Tree} (h : t.isAbsent = true) : ∃ span parts, t = node .absent span parts := by
  unfold isAbsent at h
  split at h
  · exact ⟨_, _, rfl⟩
  · cases h

theorem of_isQuasi {kind : Kind} {span : Span} {parts : List Tree}
    (h : (node kind span parts).isQuasi = true) :
    ∃ tail cooked raw, kind = .part (.quasi tail cooked raw) := by
  unfold isQuasi at h
  split at h
  · next tail cooked raw hkind => exact ⟨tail, cooked, raw, hkind⟩
  · cases h

end Tree

/-- Whether a node of this kind may have these parts. -/
def Kind.admits : Kind → List Tree → Bool
  | .absent, parts => parts.isEmpty
  | .expr (.name _), parts => parts.isEmpty
  | .expr (.string _ _), parts => parts.isEmpty
  | .part (.quasi _ _ _), parts => parts.isEmpty
  | .expr .template, parts => match parts with
    | [.node .list _ _, .node .list _ strings] => strings.all (·.isQuasi)
    | _ => false
  | .expr .tagged, parts => match parts with
    | [_, typeArgs, template] =>
      (typeArgs.isAbsent || typeArgs.isTypeArgs) && template.kind == .expr .template
    | _ => false
  | .expr .call, parts => match parts with
    | [_, .node .list _ _, typeArgs] => typeArgs.isAbsent || typeArgs.isTypeArgs
    | _ => false
  | _, _ => true

namespace Kind

theorem of_admits_template {parts : List Tree} (h : admits (.expr .template) parts = true) :
    ∃ s₁ placeholders s₂ strings,
      parts = [.node .list s₁ placeholders, .node .list s₂ strings] ∧
      strings.all (·.isQuasi) = true := by
  simp only [admits] at h
  split at h
  · exact ⟨_, _, _, _, rfl, h⟩
  · cases h

theorem of_admits_tagged {parts : List Tree} (h : admits (.expr .tagged) parts = true) :
    ∃ head typeArgs template, parts = [head, typeArgs, template] ∧
      (typeArgs.isAbsent || typeArgs.isTypeArgs) = true ∧ template.kind = .expr .template := by
  simp only [admits] at h
  split at h
  · rw [Bool.and_eq_true] at h
    exact ⟨_, _, _, rfl, h.1, by simpa using h.2⟩
  · cases h

theorem of_admits_call {parts : List Tree} (h : admits (.expr .call) parts = true) :
    ∃ head span arguments typeArgs, parts = [head, .node .list span arguments, typeArgs] ∧
      (typeArgs.isAbsent || typeArgs.isTypeArgs) = true := by
  simp only [admits] at h
  split at h
  · exact ⟨_, _, _, _, rfl, h⟩
  · cases h

end Kind

namespace Tree

mutual
/-- Whether every node of the tree has parts that its kind admits. -/
def isWellFormed : Tree → Bool
  | node kind _ parts => kind.admits parts && areWellFormed parts

def areWellFormed : List Tree → Bool
  | [] => true
  | t :: ts => isWellFormed t && areWellFormed ts
end

/-- Whether the tree is a module with well-formed items. -/
def isModule : Tree → Bool
  | node (.module _) _ items => areWellFormed items
  | _ => false

theorem areWellFormed_iff {ts : List Tree} :
    areWellFormed ts = true ↔ ∀ t ∈ ts, t.isWellFormed = true := by
  induction ts with
  | nil => simp [areWellFormed]
  | cons t ts ih => simp [areWellFormed, ih]

theorem of_isModule {m : Tree} (h : m.isModule = true) :
    ∃ hashbang span items, m = node (.module hashbang) span items ∧
      ∀ item ∈ items, item.isWellFormed = true := by
  unfold isModule at h
  split at h
  · exact ⟨_, _, _, rfl, areWellFormed_iff.mp h⟩
  · cases h

theorem isWellFormed_node {kind : Kind} {span : Span} {parts : List Tree} :
    (node kind span parts).isWellFormed = true ↔
      kind.admits parts = true ∧ areWellFormed parts = true := by
  rw [isWellFormed, Bool.and_eq_true]

theorem isWellFormed_of_mem_nodes {t u : Tree} (hwell : t.isWellFormed = true) (hu : u ∈ t.nodes) :
    u.isWellFormed = true := by
  induction t using Tree.induct with
  | node kind span parts ih =>
    rcases mem_nodes_node.mp hu with rfl | ⟨p, hp, hu⟩
    · exact hwell
    · exact ih p hp (areWellFormed_iff.mp (isWellFormed_node.mp hwell).2 p hp) hu

end Tree

/-! ## Types and specifiers

What a kind says about the sorts of the parts of its nodes, as far as imports and the uses of a name
need it. -/

namespace Tree

def isType (t : Tree) : Bool := match t.kind with
  | .type _ => true
  | _ => false

/-- Whether the tree is a name that stands for itself. -/
def isPartName (t : Tree) : Bool := match t.kind with
  | .part (.name _) => true
  | _ => false

end Tree

/-- Whether a node of this kind has parts of these sorts: type arguments are types, an import begins
with the list of its specifiers, and a specifier begins with its local name. -/
def Kind.sorts : Kind → List Tree → Bool
  | .part .typeArgs, types => types.all (·.isType)
  | .item (.import _ _), specifiers :: _ => specifiers.kind == .list
  | .part .importDefault, name :: _ => name.isPartName
  | .part (.importNamed _), name :: _ => name.isPartName
  | _, _ => true

namespace Tree

/-- Whether every node of the tree has parts of the sorts that its kind asks for. -/
def isWellSorted (t : Tree) : Bool := t.nodes.all fun u => u.kind.sorts u.parts

theorem isWellSorted_node {kind : Kind} {span : Span} {parts : List Tree} :
    (node kind span parts).isWellSorted = true ↔
      kind.sorts parts = true ∧ ∀ p ∈ parts, p.isWellSorted = true := by
  simp only [isWellSorted, List.all_eq_true, mem_nodes_node]
  constructor
  · intro h
    exact ⟨h _ (.inl rfl), fun p hp u hu => h u (.inr ⟨p, hp, hu⟩)⟩
  · rintro ⟨hroot, hparts⟩ u (rfl | ⟨p, hp, hu⟩)
    · exact hroot
    · exact hparts p hp u hu

theorem isWellSorted_of_mem_nodes {t u : Tree} (hsorted : t.isWellSorted = true) (hu : u ∈ t.nodes) :
    u.isWellSorted = true := by
  induction t using Tree.induct with
  | node kind span parts ih =>
    rcases mem_nodes_node.mp hu with rfl | ⟨p, hp, hu⟩
    · exact hsorted
    · exact ih p hp ((isWellSorted_node.mp hsorted).2 p hp) hu

end Tree
end InlineTemplates.Script
