import InlineTemplates.Proofs.Faces
import InlineTemplates.Proofs.Forms
import InlineTemplates.Proofs.Stateless

/-! # Two passes over a tree

The sites of one set of names become calls, and then those of another. Of all these sites together, a
first pass expands those that are its own, and the second one finds the others as they were, with
calls inside of them at most. -/

namespace InlineTemplates

open Script (Tree Kind)

variable {answer : Text → Answer} {bindings first second : List Binding} {t : Tree}

/-! ## What a use becomes -/

/-- The call that a use becomes if its name is tracked, whatever else is. -/
def useCall? (answer : Text → Answer) (t : Tree) : Option Tree :=
  (useOf? t).bind fun use => callFor? answer t.span use.2

theorem callOf?_of_site {site : Site} (h : siteOf? bindings t = some site) :
    callOf? answer bindings t = useCall? answer t := by
  rw [callOf?, h, Option.bind_some]
  rw [siteOf?_eq_use] at h
  obtain ⟨use, huse, h⟩ := Option.bind_eq_some_iff.mp h
  obtain ⟨b, -, rfl⟩ := Option.map_eq_some_iff.mp h
  rw [useCall?, huse]
  rfl

theorem of_useCall? {call : Tree} (h : useCall? answer t = some call) :
    ∃ name template expression, useText? t = some (name, some template) ∧
      (answer template).expression? t.span = .ok expression ∧
      call = templateCall expression t.span := by
  obtain ⟨use, huse, h⟩ := Option.bind_eq_some_iff.mp h
  obtain ⟨template, expression, htext, hanswer, hcall⟩ := of_callFor? h
  refine ⟨use.1, template, expression, ?_, hanswer, hcall⟩
  rw [useText?, huse, Option.map_some, htext]

theorem useCall?_congr {u : Tree} (htext : useText? t = useText? u) (hspan : t.span = u.span) :
    useCall? answer t = useCall? answer u := by
  have hcalls : ∀ v : Tree, useCall? answer v = (useText? v).bind fun use => use.2.bind fun template =>
      ((answer template).expression? v.span).toOption.map fun expression =>
        templateCall expression v.span := by
    intro v
    rw [useCall?, useText?, Option.bind_map]
    rfl
  rw [hcalls, hcalls, htext, hspan]

/-! ## One pass -/

theorem expanded_of_call {call : Tree} {site : Site} (hsite : siteOf? bindings t = some site)
    (hcall : callOf? answer bindings t = some call) : expanded answer bindings t = call := by
  rw [expanded_of_site hsite, callAt, hcall]
  rfl

theorem keepsFaces_expanded (answer : Text → Answer) (bindings : List Binding) :
    KeepsFaces (expanded answer bindings) where
  face := by
    rintro ⟨kind, span, parts⟩
    cases hsite : siteOf? bindings (.node kind span parts) with
    | none =>
      rw [expanded_of_none hsite]
      exact ⟨.inl rfl, rfl⟩
    | some site =>
      cases hcall : callOf? answer bindings (.node kind span parts) with
      | none =>
        rw [expanded_of_site hsite, callAt, hcall]
        exact .refl _
      | some call =>
        rw [expanded_of_call hsite hcall]
        rw [callOf?_of_site hsite] at hcall
        obtain ⟨name, template, expression, -, -, rfl⟩ := of_useCall? hcall
        exact ⟨.inr ⟨rfl, isApplied_of_siteOf? hsite⟩, rfl⟩
  node := by
    intro kind span parts hkind
    apply expanded_of_none
    apply siteOf?_of_kind
    · rintro rfl
      cases hkind
    · rintro rfl
      cases hkind

theorem useText?_expanded (hwell : t.isWellFormed = true) (hnone : siteOf? bindings t = none) :
    useText? (expanded answer bindings t) = useText? t := by
  obtain ⟨kind, span, parts⟩ := t
  rw [expanded_of_none hnone, (keepsFaces_expanded answer bindings).useText?_map hwell]

theorem siteOf?_expanded_eq_none_iff (answer : Text → Answer) (hnone : siteOf? first t = none) :
    siteOf? second (expanded answer first t) = none ↔ siteOf? second t = none := by
  obtain ⟨kind, span, parts⟩ := t
  have hfaces := (keepsFaces_expanded answer first).forall₂ parts
  rw [expanded_of_none hnone, ← Option.not_isSome_iff_eq_none, isSome_siteOf?_of_faces hfaces,
    Option.not_isSome_iff_eq_none]

theorem siteOf?_expanded_of_site (answer : Text → Answer) {site : Site}
    (hnone : siteOf? first t = none) (h : siteOf? second t = some site) :
    ∃ kept, siteOf? second (expanded answer first t) = some kept := by
  apply Option.ne_none_iff_exists'.mp
  rw [ne_eq, siteOf?_expanded_eq_none_iff answer hnone, h]
  exact Option.some_ne_none site

/-! ## Answers without tracked names -/

/-- No expression that the precompiler answers with mentions one of the names. -/
def Avoids (answer : Text → Answer) (names : Text → Prop) : Prop :=
  ∀ template span expression, (answer template).expression? span = .ok expression →
    ∀ name, names name → ¬ Mentions name expression

theorem outermost_templateCall (expression : Tree) (span : Span) :
    outermost bindings (templateCall expression span) = outermost bindings expression := by
  have hfunction : outermost bindings templateFunction = [] := rfl
  have habsent : outermost bindings .absent = [] := rfl
  have hcall : siteOf? bindings (templateCall expression span) = none := rfl
  have hlist : outermost bindings (.list [expression]) = outermost bindings expression := by
    rw [Tree.list, outermost_of_none rfl, List.flatMap_singleton]
  rw [templateCall, Tree.expr, outermost_of_none hcall]
  simp only [List.flatMap_cons, List.flatMap_nil, hfunction, habsent, hlist, List.nil_append,
    List.append_nil]

theorem declarations_templateCall (expression : Tree) (span : Span) :
    declarations (templateCall expression span) = declarations expression := by
  have hparts : declarations (templateCall expression span) =
      [] ++ ([] ++ (declarations expression ++ []) ++ []) := rfl
  rw [hparts, List.nil_append, List.nil_append, List.append_nil, List.append_nil]

section
variable (havoid : Avoids answer (Tracked bindings))
include havoid

theorem outermost_useCall? {call : Tree} (h : useCall? answer t = some call) :
    outermost bindings call = [] := by
  obtain ⟨name, template, expression, -, hanswer, rfl⟩ := of_useCall? h
  rw [outermost_templateCall]
  apply outermost_of_not_mentions
  intro b hb
  exact havoid template t.span expression hanswer b.name ⟨b, hb, rfl⟩

theorem not_tracked_of_useCall? {call : Tree} (h : useCall? answer t = some call) :
    ∀ o ∈ declarations call, ¬ Tracked bindings o.name := by
  obtain ⟨name, template, expression, -, hanswer, rfl⟩ := of_useCall? h
  rw [declarations_templateCall]
  intro o ho htracked
  exact havoid template t.span expression hanswer o.name htracked (mentions_of_mem_declarations ho)

end

/-! ## Uses with a template -/

theorem isTypeArgs_of_places {typeArgs : Tree} (hwell : typeArgs.isWellFormed = true)
    (hsorted : typeArgs.isWellSorted = true)
    (h : (typeArgs.isAbsent || typeArgs.isTypeArgs) = true) : IsTypeArgs typeArgs := by
  obtain ⟨kind, span, parts⟩ := typeArgs
  rcases Bool.or_eq_true_iff.mp h with habsent | htypes
  · obtain ⟨place, inner, heq⟩ := Tree.of_isAbsent habsent
    obtain ⟨rfl, rfl, rfl⟩ := Script.Tree.node.inj heq
    obtain rfl := List.isEmpty_iff.mp (Tree.isWellFormed_node.mp hwell).1
    exact .none
  · obtain rfl : kind = .part .typeArgs := by simpa [Tree.isTypeArgs] using htypes
    apply IsTypeArgs.types
    intro p hp
    have htype := List.all_eq_true.mp (Tree.isWellSorted_node.mp hsorted).1 p hp
    unfold Tree.isType at htype
    split at htype
    · next heq => rw [heq, Script.Kind.isErased]
    · cases htype

theorem of_plainName?_of_isWellFormed {name : Text} (hwell : t.isWellFormed = true)
    (h : plainName? t = some name) : ∃ span, t = .node (.expr (.name name)) span [] := by
  obtain ⟨span, parts, rfl⟩ := of_plainName? h
  obtain rfl := List.isEmpty_iff.mp (Tree.isWellFormed_node.mp hwell).1
  exact ⟨span, rfl⟩

theorem parts_of_isQuasi {q : Tree} (hwell : q.isWellFormed = true) (hquasi : q.isQuasi = true) :
    q.parts = [] := by
  obtain ⟨kind, span, parts⟩ := q
  obtain ⟨tail, cooked, raw, rfl⟩ := Tree.of_isQuasi hquasi
  exact List.isEmpty_iff.mp (Tree.isWellFormed_node.mp hwell).1

theorem of_text?_tagged {placeholders strings : List Tree} {template : Text}
    (h : (SiteForm.tagged placeholders strings).text? = some template) :
    placeholders = [] ∧ strings.flatMap stringOf = template := by
  cases placeholders with
  | nil => exact ⟨rfl, Option.some.inj h⟩
  | cons p ps => cases h

theorem of_text?_call {arguments : List Tree} {template : Text}
    (h : (SiteForm.call arguments).text? = some template) :
    ∃ raw span parts, arguments = [.node (.expr (.string template raw)) span parts] := by
  unfold SiteForm.text? at h
  split at h
  · next heq => cases heq
  · next value raw span parts heq =>
    obtain rfl := Option.some.inj h
    exact ⟨raw, span, parts, by simpa using heq⟩
  · cases h

theorem of_text?_written {written : Tree} {template : Text} (hwell : written.isWellFormed = true)
    (hkind : written.kind = .expr .template)
    (htext : (SiteForm.tagged (written.items 0) (written.items 1)).text? = some template) :
    ∃ s₁ s₂ s₃ strings,
      written = .node (.expr .template) s₁ [.node .list s₂ [], .node .list s₃ strings] ∧
      (∀ q ∈ strings, q.isQuasi = true ∧ q.parts = []) ∧ strings.flatMap stringOf = template := by
  obtain ⟨kind, span, parts⟩ := written
  obtain rfl : kind = .expr .template := hkind
  obtain ⟨hadmits, hparts⟩ := Tree.isWellFormed_node.mp hwell
  obtain ⟨s₂, placeholders, s₃, strings, rfl, hquasis⟩ := Script.Kind.of_admits_template hadmits
  obtain ⟨hplaceholders, hstrings⟩ := of_text?_tagged htext
  obtain rfl : placeholders = [] := hplaceholders
  have hlist := Tree.areWellFormed_iff.mp hparts (.node .list s₃ strings) (by simp)
  have hinner := Tree.areWellFormed_iff.mp (Tree.isWellFormed_node.mp hlist).2
  refine ⟨span, s₂, s₃, strings, rfl, fun q hq => ?_, hstrings⟩
  have hquasi := List.all_eq_true.mp hquasis q hq
  exact ⟨hquasi, parts_of_isQuasi (hinner q hq) hquasi⟩

section
variable {span : Span} {name template : Text} {head : Tree}

theorem handsOver_of_tagged {typeArgs written : Tree}
    (hwell : (Script.Tree.node (.expr .tagged) span [head, typeArgs, written]).isWellFormed = true)
    (hsorted : typeArgs.isWellSorted = true) (hname : plainName? head = some name)
    (htext : (SiteForm.tagged (written.items 0) (written.items 1)).text? = some template) :
    HandsOver name template span (.node (.expr .tagged) span [head, typeArgs, written]) := by
  obtain ⟨hadmits, hinner⟩ := Tree.isWellFormed_node.mp hwell
  obtain ⟨_, _, _, hshape, htypes, hkind⟩ := Script.Kind.of_admits_tagged hadmits
  simp only [List.cons.injEq, and_true] at hshape
  obtain ⟨rfl, rfl, rfl⟩ := hshape
  rw [Tree.areWellFormed_iff] at hinner
  obtain ⟨place, rfl⟩ := of_plainName?_of_isWellFormed (hinner head (by simp)) hname
  obtain ⟨s₁, s₂, s₃, strings, rfl, hstrings, htemplate⟩ :=
    of_text?_written (hinner written (by simp)) hkind htext
  exact .tagged (isTypeArgs_of_places (hinner typeArgs (by simp)) hsorted htypes) hstrings htemplate

theorem handsOver_of_call {arguments : Tree} {others : List Tree}
    (hwell : (Script.Tree.node (.expr .call) span (head :: arguments :: others)).isWellFormed = true)
    (hsorted : ∀ other ∈ others, other.isWellSorted = true) (hname : plainName? head = some name)
    (htext : (SiteForm.call arguments.parts).text? = some template) :
    HandsOver name template span (.node (.expr .call) span (head :: arguments :: others)) := by
  obtain ⟨hadmits, hinner⟩ := Tree.isWellFormed_node.mp hwell
  obtain ⟨_, listSpan, given, typeArgs, hshape, htypes⟩ := Script.Kind.of_admits_call hadmits
  simp only [List.cons.injEq] at hshape
  obtain ⟨rfl, rfl, rfl⟩ := hshape
  rw [Tree.areWellFormed_iff] at hinner
  obtain ⟨place, rfl⟩ := of_plainName?_of_isWellFormed (hinner head (by simp)) hname
  obtain ⟨raw, literalSpan, parts, hgiven⟩ := of_text?_call htext
  obtain rfl : given = [.node (.expr (.string template raw)) literalSpan parts] := hgiven
  have hlist := hinner
    (.node .list listSpan [.node (.expr (.string template raw)) literalSpan parts]) (by simp)
  have hliteral := Tree.areWellFormed_iff.mp (Tree.isWellFormed_node.mp hlist).2 _
    (List.mem_singleton_self _)
  obtain rfl := List.isEmpty_iff.mp (Tree.isWellFormed_node.mp hliteral).1
  have htypeArgs := hsorted typeArgs (List.mem_singleton_self _)
  exact .call (isTypeArgs_of_places (hinner typeArgs (by simp)) htypeArgs htypes)

theorem handsOver_of_useText? (hwell : t.isWellFormed = true) (hsorted : t.isWellSorted = true)
    (h : useText? t = some (name, some template)) : HandsOver name template t.span t := by
  obtain ⟨⟨front, form⟩, huse, hsame⟩ := Option.map_eq_some_iff.mp h
  obtain ⟨rfl, htext⟩ := Prod.mk.inj hsame
  unfold useOf? at huse
  split at huse
  · next span head typeArgs written =>
    obtain ⟨name, hname, hform⟩ := Option.map_eq_some_iff.mp huse
    obtain ⟨rfl, rfl⟩ := Prod.mk.inj hform
    have hsorts := (Tree.isWellSorted_node.mp hsorted).2
    exact handsOver_of_tagged hwell (hsorts typeArgs (by simp)) hname htext
  · next span head arguments others =>
    obtain ⟨name, hname, hform⟩ := Option.map_eq_some_iff.mp huse
    obtain ⟨rfl, rfl⟩ := Prod.mk.inj hform
    have hsorts := (Tree.isWellSorted_node.mp hsorted).2
    exact handsOver_of_call hwell (fun other hother => hsorts other (by simp [hother])) hname htext
  · cases huse

end

/-! ## Names after a pass -/

theorem declarations_of_useCall? {call : Tree} (hwell : t.isWellFormed = true)
    (hsorted : t.isWellSorted = true) (h : useCall? answer t = some call) : declarations t = [] := by
  obtain ⟨name, template, expression, htext, -, -⟩ := of_useCall? h
  exact (handsOver_of_useText? hwell hsorted htext).declarations_eq

theorem forall_declarations_node {kind : Kind} {span : Span} {parts : List Tree}
    {p : Occurrence → Prop} : (∀ o ∈ declarations (.node kind span parts), p o) ↔
      (isTypeOnly kind = false → (∀ o, ownDeclaration? (.node kind span parts) = some o → p o) ∧
        ∀ part ∈ parts, ∀ o ∈ declarations part, p o) := by
  rw [declarations, declarationsOfAll_eq_flatMap]
  cases isTypeOnly kind with
  | true => simp
  | false =>
    simp only [Bool.false_eq_true, if_false, List.mem_append, Option.mem_toList, List.mem_flatMap,
      forall_const]
    constructor
    · intro h
      exact ⟨fun o ho => h o (.inl ho), fun part hpart o ho => h o (.inr ⟨part, hpart, ho⟩)⟩
    · rintro ⟨hown, hparts⟩ o (ho | ⟨part, hpart, ho⟩)
      · exact hown o ho
      · exact hparts part hpart o ho

theorem unshadowed_expanded_iff (hwell : t.isWellFormed = true) (hsorted : t.isWellSorted = true)
    (havoid : Avoids answer (Tracked second)) (hfirst : Expandable answer first t) :
    (∀ o ∈ declarations (expanded answer first t), ¬ Tracked second o.name) ↔
      ∀ o ∈ declarations t, ¬ Tracked second o.name := by
  induction t using Tree.induct with
  | node kind span parts ih =>
    cases hsite : siteOf? first (.node kind span parts) with
    | some site =>
      obtain ⟨call, hcall⟩ := Option.isSome_iff_exists.mp ((expandable_of_site hsite).mp hfirst)
      rw [expanded_of_call hsite hcall]
      rw [callOf?_of_site hsite] at hcall
      rw [declarations_of_useCall? hwell hsorted hcall]
      exact ⟨fun _ o ho => absurd ho List.not_mem_nil,
        fun _ => not_tracked_of_useCall? havoid hcall⟩
    | none =>
      have hinner := Tree.areWellFormed_iff.mp (Tree.isWellFormed_node.mp hwell).2
      have hsorts := (Tree.isWellSorted_node.mp hsorted).2
      have hown : ownDeclaration? (.node kind span (parts.map (expanded answer first))) =
          ownDeclaration? (.node kind span parts) :=
        ownDeclaration?_congr ((keepsFaces_expanded answer first).forall₂ parts)
      rw [expandable_of_none hsite] at hfirst
      rw [expanded_of_none hsite, forall_declarations_node, forall_declarations_node, hown,
        List.forall_mem_map]
      have hparts : (∀ p ∈ parts, ∀ o ∈ declarations (expanded answer first p),
            ¬ Tracked second o.name) ↔
          ∀ p ∈ parts, ∀ o ∈ declarations p, ¬ Tracked second o.name :=
        forall₂_congr fun p hp => ih p hp (hinner p hp) (hsorts p hp) (hfirst p hp)
      rw [hparts]

/-- A pass for these names goes through the tree: nothing in it declares or assigns one of them, and
there is a call for each outermost site. -/
structure GoesThrough (answer : Text → Answer) (bindings : List Binding) (t : Tree) : Prop where
  unshadowed : ∀ o ∈ declarations t, ¬ Tracked bindings o.name
  expandable : Expandable answer bindings t

instance (answer : Text → Answer) (bindings : List Binding) (t : Tree) :
    Decidable (GoesThrough answer bindings t) :=
  decidable_of_iff ((∀ o ∈ declarations t, ¬ Tracked bindings o.name) ∧ Expandable answer bindings t)
    ⟨fun h => ⟨h.1, h.2⟩, fun h => ⟨h.unshadowed, h.expandable⟩⟩

/-! ## A second pass

`bindings` are all names, `first` those of the first pass and `second` those of the second. -/

section
variable (hsplit : ∀ name, Tracked bindings name ↔ Tracked first name ∨ Tracked second name)
include hsplit

theorem siteOf?_split :
    siteOf? bindings t = none ↔ siteOf? first t = none ∧ siteOf? second t = none := by
  rw [siteOf?_eq_none_iff, siteOf?_eq_none_iff, siteOf?_eq_none_iff]
  constructor
  · intro h
    exact ⟨fun use huse htracked => h use huse ((hsplit _).mpr (.inl htracked)),
      fun use huse htracked => h use huse ((hsplit _).mpr (.inr htracked))⟩
  · rintro ⟨hfirst, hsecond⟩ use huse htracked
    rcases (hsplit _).mp htracked with h | h
    · exact hfirst use huse h
    · exact hsecond use huse h

theorem siteOf?_of_not_first {site : Site} (h : siteOf? bindings t = some site)
    (hfirst : siteOf? first t = none) : ∃ later, siteOf? second t = some later := by
  apply Option.ne_none_iff_exists'.mp
  intro hsecond
  rw [(siteOf?_split hsplit).mpr ⟨hfirst, hsecond⟩] at h
  cases h

theorem outermost_first (t : Tree) :
    outermost first t = (outermost bindings t).flatMap (outermost first) := by
  induction t using Tree.induct with
  | node kind span parts ih =>
    cases hsite : siteOf? bindings (.node kind span parts) with
    | some site => rw [outermost_of_site hsite, List.flatMap_singleton]
    | none =>
      have hfirst := ((siteOf?_split hsplit).mp hsite).1
      rw [outermost_of_none hsite, outermost_of_none hfirst, List.flatMap_assoc]
      exact List.flatMap_congr ih

theorem expandable_first_iff : Expandable answer first t ↔
    ∀ u ∈ outermost bindings t, Expandable answer first u := by
  simp only [Expandable, outermost_first hsplit t, List.mem_flatMap]
  constructor
  · intro h u hu v hv
    exact h v ⟨u, hu, hv⟩
  · rintro h v ⟨u, hu, hv⟩
    exact h u hu v hv

/-- What a site of all names is after the first pass, if it is none of the first pass. -/
def leftOver (answer : Text → Answer) (first : List Binding) (u : Tree) : List Tree :=
  if (siteOf? first u).isSome then [] else [expanded answer first u]

theorem callOf?_second {site : Site} (hwell : t.isWellFormed = true)
    (hsite : siteOf? bindings t = some site) (hown : siteOf? first t = none) :
    callOf? answer second (expanded answer first t) = callOf? answer bindings t := by
  obtain ⟨later, hlater⟩ := siteOf?_of_not_first hsplit hsite hown
  obtain ⟨kept, hkept⟩ := siteOf?_expanded_of_site answer hown hlater
  rw [callOf?_of_site hkept, callOf?_of_site hsite]
  exact useCall?_congr (useText?_expanded hwell hown) ((keepsFaces_expanded answer first).face t).span

omit hsplit in
theorem mem_leftOver {u v : Tree} :
    v ∈ leftOver answer first u ↔ siteOf? first u = none ∧ v = expanded answer first u := by
  unfold leftOver
  cases siteOf? first u <;> simp

variable (havoid : Avoids answer (Tracked bindings))
include havoid

theorem avoids_second : Avoids answer (Tracked second) := by
  intro template span expression hanswer name htracked
  exact havoid template span expression hanswer name ((hsplit name).mpr (.inr htracked))

/-- **What a second pass finds:** the sites of all names that were none of the first pass. -/
theorem outermost_second (hfirst : Expandable answer first t) :
    outermost second (expanded answer first t) =
      (outermost bindings t).flatMap (leftOver answer first) := by
  induction t using Tree.induct with
  | node kind span parts ih =>
    cases hsite : siteOf? bindings (.node kind span parts) with
    | some site =>
      rw [outermost_of_site hsite, List.flatMap_singleton, leftOver]
      cases hown : siteOf? first (.node kind span parts) with
      | some own =>
        -- The first pass has put a call here, and its answer mentions no second name.
        obtain ⟨call, hcall⟩ := Option.isSome_iff_exists.mp ((expandable_of_site hown).mp hfirst)
        rw [expanded_of_call hown hcall]
        rw [callOf?_of_site hown] at hcall
        exact outermost_useCall? (avoids_second hsplit havoid) hcall
      | none =>
        obtain ⟨later, hlater⟩ := siteOf?_of_not_first hsplit hsite hown
        obtain ⟨kept, hkept⟩ := siteOf?_expanded_of_site answer hown hlater
        rw [outermost_of_site hkept]
        rfl
    | none =>
      obtain ⟨hown, hlater⟩ := (siteOf?_split hsplit).mp hsite
      have hkept := (siteOf?_expanded_eq_none_iff answer hown).mpr hlater
      have hparts := (expandable_of_none hown).mp hfirst
      rw [expanded_of_none hown] at hkept ⊢
      rw [outermost_of_none hsite, outermost_of_none hkept, List.flatMap_map, List.flatMap_assoc]
      exact List.flatMap_congr fun p hp => ih p hp (hparts p hp)

theorem expandable_second_iff (hwell : t.isWellFormed = true) (hfirst : Expandable answer first t) :
    Expandable answer second (expanded answer first t) ↔
      ∀ u ∈ outermost bindings t, siteOf? first u = none →
        (callOf? answer bindings u).isSome = true := by
  rw [Expandable, outermost_second hsplit havoid hfirst]
  constructor
  · intro h u hu hown
    obtain ⟨site, hsite⟩ := siteOf?_of_mem_outermost hu
    have hcall := h _ (List.mem_flatMap.mpr ⟨u, hu, mem_leftOver.mpr ⟨hown, rfl⟩⟩)
    rwa [callOf?_second hsplit (isWellFormed_of_mem_outermost hwell hu) hsite hown] at hcall
  · intro h v hv
    obtain ⟨u, hu, hv⟩ := List.mem_flatMap.mp hv
    obtain ⟨hown, rfl⟩ := mem_leftOver.mp hv
    obtain ⟨site, hsite⟩ := siteOf?_of_mem_outermost hu
    rw [callOf?_second hsplit (isWellFormed_of_mem_outermost hwell hu) hsite hown]
    exact h u hu hown

/-- **Two passes have a call for each of their sites** just when one pass for all names has, and each
of its sites that is none of the first pass is also expandable for the first names alone. -/
theorem expandable_both_iff (hwell : t.isWellFormed = true) :
    Expandable answer first t ∧ Expandable answer second (expanded answer first t) ↔
      Expandable answer bindings t ∧
        ∀ u ∈ outermost bindings t, siteOf? first u = none → Expandable answer first u := by
  have hcalls : ∀ u ∈ outermost bindings t, ∀ own, siteOf? first u = some own →
      callOf? answer first u = callOf? answer bindings u := by
    intro u hu own hown
    obtain ⟨site, hsite⟩ := siteOf?_of_mem_outermost hu
    rw [callOf?_of_site hown, callOf?_of_site hsite]
  constructor
  · rintro ⟨hfirst, hsecond⟩
    have hinner := (expandable_first_iff hsplit).mp hfirst
    refine ⟨fun u hu => ?_, fun u hu _ => hinner u hu⟩
    cases hown : siteOf? first u with
    | some own =>
      rw [← hcalls u hu own hown]
      exact (expandable_of_site hown).mp (hinner u hu)
    | none => exact (expandable_second_iff hsplit havoid hwell hfirst).mp hsecond u hu hown
  · rintro ⟨hall, hothers⟩
    have hfirst : Expandable answer first t := by
      rw [expandable_first_iff hsplit]
      intro u hu
      cases hown : siteOf? first u with
      | some own =>
        rw [expandable_of_site hown, hcalls u hu own hown]
        exact hall u hu
      | none => exact hothers u hu hown
    refine ⟨hfirst, (expandable_second_iff hsplit havoid hwell hfirst).mpr ?_⟩
    exact fun u hu _ => hall u hu

/-- **Two passes go through a tree** just when one pass for all names does, and one for the first names
goes through each of its sites that is none of them. -/
theorem goesThrough_both_iff (hwell : t.isWellFormed = true) (hsorted : t.isWellSorted = true) :
    GoesThrough answer first t ∧ GoesThrough answer second (expanded answer first t) ↔
      GoesThrough answer bindings t ∧
        ∀ u ∈ outermost bindings t, siteOf? first u = none → GoesThrough answer first u := by
  have hcalls := expandable_both_iff hsplit havoid hwell
  constructor
  · rintro ⟨⟨hdeclared, hfirst⟩, ⟨hdeclared', hsecond⟩⟩
    obtain ⟨hall, hothers⟩ := hcalls.mp ⟨hfirst, hsecond⟩
    rw [unshadowed_expanded_iff hwell hsorted (avoids_second hsplit havoid) hfirst] at hdeclared'
    refine ⟨⟨fun o ho htracked => ?_, hall⟩, fun u hu hown => ⟨?_, hothers u hu hown⟩⟩
    · rcases (hsplit o.name).mp htracked with h | h
      · exact hdeclared o ho h
      · exact hdeclared' o ho h
    · -- A site with a call declares nothing at all.
      obtain ⟨site, hsite⟩ := siteOf?_of_mem_outermost hu
      obtain ⟨call, hcall⟩ := Option.isSome_iff_exists.mp (hall u hu)
      rw [callOf?_of_site hsite] at hcall
      have hnodes := mem_nodes_of_mem_outermost hu
      rw [declarations_of_useCall? (Tree.isWellFormed_of_mem_nodes hwell hnodes)
        (Tree.isWellSorted_of_mem_nodes hsorted hnodes) hcall]
      exact fun o ho => absurd ho List.not_mem_nil
  · rintro ⟨⟨hdeclared, hall⟩, hothers⟩
    obtain ⟨hfirst, hsecond⟩ := hcalls.mpr ⟨hall, fun u hu hown => (hothers u hu hown).expandable⟩
    refine ⟨⟨fun o ho htracked => ?_, hfirst⟩, ⟨?_, hsecond⟩⟩
    · exact hdeclared o ho ((hsplit o.name).mpr (.inl htracked))
    · rw [unshadowed_expanded_iff hwell hsorted (avoids_second hsplit havoid) hfirst]
      exact fun o ho htracked => hdeclared o ho ((hsplit o.name).mpr (.inr htracked))

/-- **Two passes make of a tree what one pass for all names makes of it.** -/
theorem expanded_second (hwell : t.isWellFormed = true) (hfirst : Expandable answer first t)
    (hall : Expandable answer bindings t) :
    expanded answer second (expanded answer first t) = expanded answer bindings t := by
  induction t using Tree.induct with
  | node kind span parts ih =>
    cases hsite : siteOf? bindings (.node kind span parts) with
    | some site =>
      obtain ⟨call, hcall⟩ := Option.isSome_iff_exists.mp ((expandable_of_site hsite).mp hall)
      rw [expanded_of_call hsite hcall]
      cases hown : siteOf? first (.node kind span parts) with
      | some own =>
        -- Both passes would make the same call of it, so the first one has, and the second finds none.
        rw [callOf?_of_site hsite] at hcall
        have hsame := (callOf?_of_site hown).trans hcall
        rw [expanded_of_call hown hsame]
        apply expanded_of_outermost_nil
        exact outermost_useCall? (avoids_second hsplit havoid) hcall
      | none =>
        obtain ⟨later, hlater⟩ := siteOf?_of_not_first hsplit hsite hown
        obtain ⟨kept, hkept⟩ := siteOf?_expanded_of_site answer hown hlater
        apply expanded_of_call hkept
        rw [callOf?_second hsplit hwell hsite hown, hcall]
    | none =>
      obtain ⟨hown, hlater⟩ := (siteOf?_split hsplit).mp hsite
      have hkept := (siteOf?_expanded_eq_none_iff answer hown).mpr hlater
      have hinner := Tree.areWellFormed_iff.mp (Tree.isWellFormed_node.mp hwell).2
      rw [expandable_of_none hown] at hfirst
      rw [expandable_of_none hsite] at hall
      rw [expanded_of_none hown] at hkept ⊢
      rw [expanded_of_none hkept, expanded_of_none hsite, List.map_map]
      refine congrArg (Script.Tree.node kind span) (List.map_congr_left fun p hp => ?_)
      exact ih p hp (hinner p hp) (hfirst p hp) (hall p hp)

theorem length_outermost_both (hfirst : Expandable answer first t) :
    (outermost first t).length + (outermost second (expanded answer first t)).length =
      (outermost bindings t).length +
        (((outermost bindings t).filter fun u => (siteOf? first u).isNone).flatMap
          (outermost first)).length := by
  rw [outermost_first hsplit t, outermost_second hsplit havoid hfirst]
  generalize outermost bindings t = us
  induction us with
  | nil => rfl
  | cons u us ih =>
    rw [List.flatMap_cons, List.flatMap_cons, List.length_append, List.length_append,
      List.length_cons, leftOver]
    cases hown : siteOf? first u with
    | some own =>
      rw [outermost_of_site hown, List.filter_cons_of_neg (by simp [hown])]
      simp only [Option.isSome_some, if_true, List.length_nil, List.length_singleton]
      omega
    | none =>
      rw [List.filter_cons_of_pos (by simp [hown]), List.flatMap_cons, List.length_append]
      simp only [Option.isSome_none, Bool.false_eq_true, if_false, List.length_singleton]
      omega

end

end InlineTemplates
