import InlineTemplates.Declaration

/-! # Names outside of types

The check of names looks at the nodes that stand in no type. What a pattern aims at stands there too,
in whatever depth. -/

namespace InlineTemplates

open Script (Tree Kind)

/-! ## Nodes outside of types -/

/-- Whether a node of this kind is a type or a member of one. Types are gone when a program runs. -/
def Script.Kind.isErased : Kind → Bool
  | .type _ => true
  | .typeElement _ => true
  | _ => false

mutual
/-- The nodes of a tree that stand in no type, each before its parts. -/
def valueNodes : Tree → List Tree
  | .node kind span parts =>
    if kind.isErased then [] else .node kind span parts :: valueNodesOfAll parts

def valueNodesOfAll : List Tree → List Tree
  | [] => []
  | t :: ts => valueNodes t ++ valueNodesOfAll ts
end

mutual
def typeNodes : Tree → List Tree
  | .node kind span parts =>
    if kind.isErased then (Script.Tree.node kind span parts).nodes else typeNodesOfAll parts

def typeNodesOfAll : List Tree → List Tree
  | [] => []
  | t :: ts => typeNodes t ++ typeNodesOfAll ts
end

mutual
theorem mem_nodes_iff {u : Tree} : ∀ t : Tree, u ∈ t.nodes ↔ u ∈ valueNodes t ∨ u ∈ typeNodes t
  | .node kind span parts => by
    rw [valueNodes, typeNodes]
    cases h : kind.isErased with
    | true => simp
    | false => simp [Tree.nodes, mem_nodesAll_iff parts, or_assoc]

theorem mem_nodesAll_iff {u : Tree} :
    ∀ ts : List Tree, u ∈ Tree.nodesAll ts ↔ u ∈ valueNodesOfAll ts ∨ u ∈ typeNodesOfAll ts
  | [] => by simp [Tree.nodesAll, valueNodesOfAll, typeNodesOfAll]
  | t :: ts => by
    rw [Tree.nodesAll, valueNodesOfAll, typeNodesOfAll, List.mem_append, List.mem_append,
      List.mem_append, mem_nodes_iff t, mem_nodesAll_iff ts]
    exact or_or_or_comm
end

theorem valueNodesOfAll_eq_flatMap (ts : List Tree) :
    valueNodesOfAll ts = ts.flatMap valueNodes := by
  induction ts with
  | nil => rfl
  | cons t ts ih => rw [valueNodesOfAll, ih, List.flatMap_cons]

section
variable {kind : Kind} {span : Span} {parts : List Tree} {t u : Tree}

theorem valueNodes_node (h : kind.isErased = false) :
    valueNodes (.node kind span parts) = .node kind span parts :: valueNodesOfAll parts := by
  rw [valueNodes, h]
  rfl

theorem self_mem_valueNodes (h : t.kind.isErased = false) : t ∈ valueNodes t := by
  cases t with
  | node kind span parts =>
    rw [valueNodes_node (by exact h)]
    exact List.mem_cons_self

theorem mem_valueNodes_of_part (h : kind.isErased = false) (ht : t ∈ parts)
    (hu : u ∈ valueNodes t) : u ∈ valueNodes (.node kind span parts) := by
  rw [valueNodes_node h, valueNodesOfAll_eq_flatMap]
  exact List.mem_cons_of_mem _ (List.mem_flatMap.mpr ⟨t, ht, hu⟩)

end

mutual
theorem valueNodes_trans {u v : Tree} (hv : v ∈ valueNodes u) :
    ∀ {t : Tree}, u ∈ valueNodes t → v ∈ valueNodes t
  | .node kind span parts, hu => by
    cases h : kind.isErased with
    | true =>
      rw [valueNodes, h] at hu
      cases hu
    | false =>
      rw [valueNodes_node h] at hu ⊢
      rcases List.mem_cons.mp hu with rfl | hu
      · rwa [valueNodes_node h] at hv
      · exact List.mem_cons_of_mem _ (valueNodesOfAll_trans hv hu)

theorem valueNodesOfAll_trans {u v : Tree} (hv : v ∈ valueNodes u) :
    ∀ {ts : List Tree}, u ∈ valueNodesOfAll ts → v ∈ valueNodesOfAll ts
  | t :: ts, hu => by
    rw [valueNodesOfAll, List.mem_append] at hu ⊢
    rcases hu with hu | hu
    · exact .inl (valueNodes_trans hv hu)
    · exact .inr (valueNodesOfAll_trans hv hu)
end

/-! ## The check of names -/

theorem isTypeOnly_eq_isErased (kind : Kind) : isTypeOnly kind = kind.isErased := by
  cases kind <;> rfl

mutual
theorem declarations_eq_flatMap : ∀ t : Tree,
    declarations t = (valueNodes t).flatMap fun u => (ownDeclaration? u).toList
  | .node kind span parts => by
    rw [declarations, isTypeOnly_eq_isErased]
    cases h : kind.isErased with
    | true => simp [valueNodes, h]
    | false =>
      rw [valueNodes_node h, List.flatMap_cons, declarationsOfAll_eq_flatMap_valueNodes parts]
      rfl

theorem declarationsOfAll_eq_flatMap_valueNodes : ∀ ts : List Tree,
    declarationsOfAll ts = (valueNodesOfAll ts).flatMap fun u => (ownDeclaration? u).toList
  | [] => rfl
  | t :: ts => by
    rw [declarationsOfAll, valueNodesOfAll, List.flatMap_append, declarations_eq_flatMap t,
      declarationsOfAll_eq_flatMap_valueNodes ts]
end

def Tracked (bindings : List Binding) (name : Text) : Prop := ∃ b ∈ bindings, b.name = name

instance (bindings : List Binding) (name : Text) : Decidable (Tracked bindings name) :=
  inferInstanceAs (Decidable (∃ b ∈ bindings, b.name = name))

theorem isSome_find? {bindings : List Binding} {name : Text} :
    (Binding.find? bindings name).isSome = true ↔ Tracked bindings name := by
  simp [Binding.find?, Tracked]

theorem shadowing?_eq_none_iff {bindings : List Binding} {o : Occurrence} :
    shadowing? bindings o = none ↔ ¬ Tracked bindings o.name := by
  simp [shadowing?, Binding.find?, Tracked]

theorem checkShadowing_eq_ok_iff_declarations {bindings : List Binding} {m : Tree} :
    checkShadowing bindings m = .ok () ↔ ∀ o ∈ declarations m, ¬ Tracked bindings o.name := by
  have hok : checkShadowing bindings m = .ok () ↔
      (declarations m).findSome? (shadowing? bindings) = none := by
    unfold checkShadowing
    split
    · next e he => simp [he]
    · next hnone => simp [hnone]
  rw [hok, List.findSome?_eq_none_iff]
  simp only [shadowing?_eq_none_iff]

/-- The check passes just when nothing outside of types declares or assigns a tracked name. -/
theorem checkShadowing_eq_ok_iff {bindings : List Binding} {m : Tree} :
    checkShadowing bindings m = .ok () ↔
      ∀ u ∈ valueNodes m, ∀ o, ownDeclaration? u = some o → ¬ Tracked bindings o.name := by
  rw [checkShadowing_eq_ok_iff_declarations, declarations_eq_flatMap]
  simp only [List.mem_flatMap, Option.mem_toList]
  constructor
  · intro h u hu o ho
    exact h o ⟨u, hu, ho⟩
  · rintro h o ⟨u, hu, ho⟩
    exact h u hu o ho

theorem not_tracked_of_ownDeclaration {bindings : List Binding} {m u : Tree} {o : Occurrence}
    (hcheck : checkShadowing bindings m = .ok ()) (hu : u ∈ valueNodes m)
    (ho : ownDeclaration? u = some o) : ¬ Tracked bindings o.name :=
  checkShadowing_eq_ok_iff.mp hcheck u hu o ho

/-! ## What a pattern aims at -/

/-- `u` stands at one of the ends of the pattern `t`: an element, a property, a default or a rest of
it, in any depth. -/
inductive AimedAt (u : Tree) : Tree → Prop where
  | self : AimedAt u u
  | element {optional s s' elements others e} (he : e ∈ elements) (h : AimedAt u e) :
      AimedAt u (.node (.pat (.array optional)) s (.node .list s' elements :: others))
  | property {optional s s' properties others e} (he : e ∈ properties) (h : AimedAt u e) :
      AimedAt u (.node (.pat (.object optional)) s (.node .list s' properties :: others))
  | rest {s target others} (h : AimedAt u target) :
      AimedAt u (.node (.pat .rest) s (target :: others))
  | default {s target others} (h : AimedAt u target) :
      AimedAt u (.node (.pat .default) s (target :: others))
  | keyValue {s key target others} (h : AimedAt u target) :
      AimedAt u (.node (.pat .keyValue) s (key :: target :: others))
  | shorthand {s key others} (h : AimedAt u key) :
      AimedAt u (.node (.pat .shorthand) s (key :: others))

theorem mem_valueNodes_of_aimedAt {u t : Tree} (h : AimedAt u t) (hu : u.kind.isErased = false) :
    u ∈ valueNodes t := by
  induction h with
  | self => exact self_mem_valueNodes hu
  | element he _ ih | property he _ ih =>
    exact mem_valueNodes_of_part rfl List.mem_cons_self (mem_valueNodes_of_part rfl he ih)
  | rest _ ih | default _ ih | shorthand _ ih =>
    exact mem_valueNodes_of_part rfl List.mem_cons_self ih
  | keyValue _ ih =>
    exact mem_valueNodes_of_part rfl (List.mem_cons_of_mem _ List.mem_cons_self) ih

theorem not_tracked_of_aimedAt {bindings : List Binding} {m pattern : Tree} {name : Text}
    {optional : Bool} {span : Span} {parts : List Tree}
    (hcheck : checkShadowing bindings m = .ok ())
    (haim : AimedAt (.node (.pat (.name name optional)) span parts) pattern)
    (hpattern : ∀ u ∈ valueNodes pattern, u ∈ valueNodes m) : ¬ Tracked bindings name := by
  have hmem := hpattern _ (mem_valueNodes_of_aimedAt haim rfl)
  exact not_tracked_of_ownDeclaration hcheck hmem rfl

end InlineTemplates
