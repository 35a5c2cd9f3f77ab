import InlineTemplates.Proofs.Faces
import InlineTemplates.Proofs.Failures
import InlineTemplates.Proofs.Sample

/-! # Spans are only metadata

Two modules that are equal without their spans have runs that go hand in hand: step by step they ask
the precompiler for the same, and in the end both succeed or both fail for the same reason. What
differs is where an error is said to be, and how it quotes an import. -/

namespace InlineTemplates

open Script (Tree Kind)

variable {σ α β γ δ : Type} {bindings : List Binding} {targets : List Target} {t u : Tree}

/-! ## Nodes without spans -/

section
variable {kind : Kind} {span : Span} {parts : List Tree}

theorem Script.Tree.eraseSpans_node : (Script.Tree.node kind span parts).eraseSpans =
    .node kind .nowhere (parts.map Tree.eraseSpans) := by
  rw [Tree.eraseSpans, Tree.eraseSpansAll_eq_map]

theorem Script.Tree.kind_eraseSpans (t : Tree) : t.eraseSpans.kind = t.kind := by
  cases t
  rfl

theorem Script.Tree.parts_eraseSpans (t : Tree) :
    t.eraseSpans.parts = t.parts.map Tree.eraseSpans := by
  cases t
  rw [eraseSpans_node]
  rfl

theorem Script.Tree.of_eraseSpans_node_eq
    (h : (Script.Tree.node kind span parts).eraseSpans = u.eraseSpans) :
    ∃ span' parts', u = .node kind span' parts' ∧
      parts.map Tree.eraseSpans = parts'.map Tree.eraseSpans := by
  obtain ⟨kind', span', parts'⟩ := u
  rw [eraseSpans_node, eraseSpans_node] at h
  obtain ⟨rfl, -, hparts⟩ := Script.Tree.node.inj h
  exact ⟨span', parts', rfl, hparts⟩

theorem Script.Tree.items_eraseSpans (t : Tree) (i : Nat) :
    t.eraseSpans.items i = (t.items i).map Tree.eraseSpans := by
  unfold Tree.items Tree.part
  rw [Tree.parts_eraseSpans, List.getD_eq_getElem?_getD, List.getD_eq_getElem?_getD,
    List.getElem?_map]
  cases t.parts[i]? with
  | none => rfl
  | some p => exact p.parts_eraseSpans

end

theorem sameRoot_eraseSpans (t : Tree) : SameRoot t.eraseSpans t := .inl t.kind_eraseSpans

/-! ## What is read off a node -/

theorem importSource?_eraseSpans (item : Tree) :
    importSource? item.eraseSpans = importSource? item := by
  obtain ⟨kind, span, parts⟩ := item
  rw [Script.Tree.eraseSpans_node]
  apply importSource?_congr
  · rw [List.length_map]
  · rw [List.getElem?_map]
    cases parts[1]? with
    | none => rfl
    | some second => exact (sameRoot_eraseSpans second).stringValue?_eq

theorem importTarget?_eraseSpans (item : Tree) :
    importTarget? targets item.eraseSpans = importTarget? targets item := by
  rw [importTarget?, importTarget?, importSource?_eraseSpans]

theorem specifierName?_eraseSpans {target : Target} (specifier : Tree) :
    specifierName? target specifier.eraseSpans = specifierName? target specifier := by
  obtain ⟨kind, span, parts⟩ := specifier
  rw [Script.Tree.eraseSpans_node]
  cases kind with
  | part k =>
    cases k with
    | importDefault =>
      obtain _ | ⟨name, _ | _⟩ := parts
      · rfl
      · simp only [specifierName?, acceptedName?, Tree.list, List.map_cons, List.map_nil,
          (sameRoot_eraseSpans name).writtenName?_eq]
      · rfl
    | importNamed typeOnly =>
      cases typeOnly with
      | true => rfl
      | false =>
        obtain _ | ⟨name, _ | ⟨imported, _ | _⟩⟩ := parts
        · rfl
        · rfl
        · simp only [specifierName?, acceptedName?, Tree.list, List.map_cons, List.map_nil,
            (sameRoot_eraseSpans name).writtenName?_eq,
            (sameRoot_eraseSpans imported).writtenName?_eq,
            (sameRoot_eraseSpans imported).isAbsent_eq]
        · rfl
    | _ => rfl
  | _ => rfl

theorem soleName?_eraseSpans {target : Target} (specifiers : Tree) :
    soleName? target specifiers.eraseSpans = soleName? target specifiers := by
  unfold soleName?
  rw [Script.Tree.parts_eraseSpans]
  obtain _ | ⟨specifier, _ | _⟩ := specifiers.parts
  · rfl
  · exact specifierName?_eraseSpans specifier
  · rfl

theorem acceptedName?_eraseSpans {target : Target} (item : Tree) :
    acceptedName? target item.eraseSpans = acceptedName? target item := by
  obtain ⟨kind, span, parts⟩ := item
  rw [Script.Tree.eraseSpans_node]
  cases kind with
  | item k =>
    cases k with
    | «import» typeOnly phase =>
      cases typeOnly with
      | true => rfl
      | false =>
        rw [acceptedName?_import, acceptedName?_import, List.head?_map]
        cases parts.head? with
        | none => rfl
        | some specifiers => exact soleName?_eraseSpans specifiers
    | _ => rfl
  | _ => rfl

theorem ownDeclaration?_eraseSpans (t : Tree) :
    (ownDeclaration? t.eraseSpans).map Occurrence.name =
      (ownDeclaration? t).map Occurrence.name := by
  have hoccurrence : ∀ t : Tree, (occurrence? t.eraseSpans).map Occurrence.name =
      (occurrence? t).map Occurrence.name := by
    intro t
    rw [occurrence?_eq_word, occurrence?_eq_word, t.kind_eraseSpans, Option.map_map, Option.map_map]
    rfl
  obtain ⟨kind, span, parts⟩ := t
  rw [Script.Tree.eraseSpans_node]
  cases parts with
  | nil =>
    cases kind with
    | expr k => cases k <;> rfl
    | pat k => cases k <;> rfl
    | stmt k => cases k <;> rfl
    | part k => cases k <;> rfl
    | _ => rfl
  | cons first others =>
    have hfirst := hoccurrence first
    cases kind with
    | expr k =>
      cases k with
      | update increment prefixed =>
        cases others with
        | cons _ _ => rfl
        | nil =>
          simp only [ownDeclaration?, List.map_cons, List.map_nil, first.kind_eraseSpans]
          cases first.kind with
          | expr _ => exact hfirst
          | _ => rfl
      | function | classExpr => exact hfirst
      | _ => rfl
    | pat k => cases k <;> rfl
    | stmt k =>
      cases k with
      | function _ | classDecl _ => exact hfirst
      | _ => rfl
    | part k =>
      cases k with
      | importNamed _ | importDefault | importNamespace => exact hfirst
      | _ => rfl
    | _ => rfl

theorem declarations_eraseSpans (t : Tree) :
    (declarations t.eraseSpans).map Occurrence.name = (declarations t).map Occurrence.name := by
  induction t using Tree.induct with
  | node kind span parts ih =>
    have hown := ownDeclaration?_eraseSpans (.node kind span parts)
    rw [Script.Tree.eraseSpans_node] at hown ⊢
    rw [declarations, declarations]
    split
    · rfl
    · rw [declarationsOfAll_eq_flatMap, declarationsOfAll_eq_flatMap, List.map_append,
        List.map_append, ← Option.toList_map, ← Option.toList_map, hown, List.flatMap_map,
        List.map_flatMap, List.map_flatMap]
      exact congrArg _ (List.flatMap_congr ih)

/-! ## Sites without spans -/

def SiteForm.eraseSpans : SiteForm → SiteForm
  | tagged placeholders strings =>
    tagged (placeholders.map Tree.eraseSpans) (strings.map Tree.eraseSpans)
  | call arguments => call (arguments.map Tree.eraseSpans)

def Site.eraseSpans (site : Site) : Site := ⟨site.binding, .nowhere, site.form.eraseSpans⟩

theorem useOf?_eraseSpans (t : Tree) :
    useOf? t.eraseSpans = (useOf? t).map fun use => (use.1, use.2.eraseSpans) := by
  obtain ⟨kind, span, parts⟩ := t
  rw [Script.Tree.eraseSpans_node]
  by_cases htagged : kind = .expr .tagged
  · subst htagged
    obtain _ | ⟨head, _ | ⟨typeArgs, _ | ⟨template, _ | ⟨_, _⟩⟩⟩⟩ := parts
    · rfl
    · rfl
    · rfl
    · simp only [useOf?, List.map_cons, List.map_nil, (sameRoot_eraseSpans head).plainName?_eq,
        Script.Tree.items_eraseSpans, Option.map_map]
      rfl
    · rfl
  · by_cases hcall : kind = .expr .call
    · subst hcall
      obtain _ | ⟨head, _ | ⟨arguments, others⟩⟩ := parts
      · rfl
      · rfl
      · simp only [useOf?, List.map_cons, (sameRoot_eraseSpans head).plainName?_eq,
          Script.Tree.parts_eraseSpans, Option.map_map]
        rfl
    · have hnone : ∀ (span : Span) (ps : List Tree), useOf? (.node kind span ps) = none := by
        intro span ps
        unfold useOf?
        split
        · next heq => exact absurd (congrArg Tree.kind heq) htagged
        · next heq => exact absurd (congrArg Tree.kind heq) hcall
        · rfl
      rw [hnone, hnone]
      rfl

theorem siteOf?_eraseSpans (t : Tree) :
    siteOf? bindings t.eraseSpans = (siteOf? bindings t).map Site.eraseSpans := by
  have hspan : t.eraseSpans.span = .nowhere := by
    cases t
    rfl
  rw [siteOf?_eq_use, siteOf?_eq_use, useOf?_eraseSpans, hspan]
  cases useOf? t with
  | none => rfl
  | some use =>
    rw [Option.map_some, Option.bind_some, Option.bind_some, Option.map_map]
    rfl

/-! ## Two runs in step -/

/-- What an error says, apart from its place and from the quote of an import. -/
def TransformError.reason (e : TransformError) : TransformErrorKind :=
  match e.kind with
  | .importForm required _ => .importForm required []
  | kind => kind

/-- Two outcomes are results in the relation, or errors for the same reason. -/
inductive Agree (R : α → β → Prop) : Except TransformError α → Except TransformError β → Prop where
  | ok {a b} (h : R a b) : Agree R (.ok a) (.ok b)
  | error {d e} (h : d.reason = e.reason) : Agree R (.error d) (.error e)

/-- Begun in the same state, the two leave the same state, and their outcomes agree. -/
def Work.InStep (R : α → β → Prop) (w : Work σ α) (v : Work σ β) : Prop :=
  ∀ s, (w.runFrom s).2 = (v.runFrom s).2 ∧ Agree R (w.runFrom s).1 (v.runFrom s).1

namespace Work

variable {R : α → β → Prop} {Q : γ → δ → Prop}

theorem InStep.pure {a : α} {b : β} (h : R a b) :
    InStep R (Pure.pure a : Work σ α) (Pure.pure b) := by
  intro s
  exact ⟨rfl, .ok h⟩

theorem InStep.liftExcept {r : Except TransformError α} {q : Except TransformError β}
    (h : Agree R r q) : InStep R (liftM r : Work σ α) (liftM q) := by
  intro s
  exact ⟨rfl, h⟩

theorem InStep.bind {w : Work σ α} {v : Work σ β} {next : α → Work σ γ} {next' : β → Work σ δ}
    (h : InStep R w v) (hnext : ∀ a b, R a b → InStep Q (next a) (next' b)) :
    InStep Q (w >>= next) (v >>= next') := by
  intro s
  obtain ⟨hstate, houtcome⟩ := h s
  rw [runFrom_bind, runFrom_bind]
  generalize w.runFrom s = first at hstate houtcome ⊢
  generalize v.runFrom s = second at hstate houtcome ⊢
  obtain ⟨r, s₁⟩ := first
  obtain ⟨q, s₂⟩ := second
  obtain rfl : s₁ = s₂ := hstate
  cases houtcome with
  | ok hab => exact hnext _ _ hab s₁
  | error hreason => exact ⟨rfl, .error hreason⟩

end Work

/-! ## Imports -/

theorem eq_of_eraseSpans_eq (f : Tree → α) (hf : ∀ t, f t.eraseSpans = f t)
    (h : t.eraseSpans = u.eraseSpans) : f t = f u := by
  rw [← hf t, h, hf u]

theorem agree_bindingOf (source source' : Text) (found : List Binding) (target : Target)
    (h : t.eraseSpans = u.eraseSpans) :
    Agree Eq (bindingOf source found target t) (bindingOf source' found target u) := by
  have hname := eq_of_eraseSpans_eq (acceptedName? target) acceptedName?_eraseSpans h
  unfold bindingOf
  rw [hname]
  cases acceptedName? target u with
  | none => exact .error rfl
  | some name =>
    dsimp only
    split
    · exact .error rfl
    · exact .ok rfl

theorem agree_bindingsAfter (source source' : Text) :
    ∀ {items items' : List Tree} (found : List Binding),
      items.map Tree.eraseSpans = items'.map Tree.eraseSpans →
      Agree Eq (bindingsAfter targets source found items)
        (bindingsAfter targets source' found items')
  | [], [], found, _ => .ok rfl
  | item :: rest, item' :: rest', found, h => by
    obtain ⟨hitem, hrest⟩ := List.cons_eq_cons.mp h
    have htarget := eq_of_eraseSpans_eq (importTarget? targets) importTarget?_eraseSpans hitem
    rw [bindingsAfter, bindingsAfter, htarget]
    cases importTarget? targets item' with
    | none => exact agree_bindingsAfter source source' found hrest
    | some target =>
      have hbinding := agree_bindingOf source source' found target hitem
      dsimp only
      generalize bindingOf source found target item = r at hbinding ⊢
      generalize bindingOf source' found target item' = q at hbinding ⊢
      cases hbinding with
      | ok hb =>
        obtain rfl := hb
        exact agree_bindingsAfter source source' _ hrest
      | error hreason => exact .error hreason

theorem map_eraseSpans_otherItems (items : List Tree) :
    (otherItems targets items).map Tree.eraseSpans =
      otherItems targets (items.map Tree.eraseSpans) := by
  unfold otherItems
  rw [List.filter_map]
  congr 2
  funext item
  rw [Function.comp_apply, importTarget?_eraseSpans]

theorem agree_trackImports (source source' : Text) (h : t.eraseSpans = u.eraseSpans) :
    Agree (fun a b => a.1 = b.1 ∧ a.2.eraseSpans = b.2.eraseSpans)
      (trackImports targets source t) (trackImports targets source' u) := by
  obtain ⟨kind, span, items⟩ := t
  obtain ⟨span', items', rfl, hitems⟩ := Tree.of_eraseSpans_node_eq h
  have hbindings : Agree Eq (bindingsAfter targets source [] items)
      (bindingsAfter targets source' [] items') := agree_bindingsAfter source source' [] hitems
  simp only [trackImports, Tree.parts_node, Tree.kind_node, Tree.span_node]
  generalize bindingsAfter targets source [] items = r at hbindings ⊢
  generalize bindingsAfter targets source' [] items' = q at hbindings ⊢
  cases hbindings with
  | error hreason => exact .error hreason
  | ok hb =>
    refine .ok ⟨hb, ?_⟩
    rw [Script.Tree.eraseSpans_node, Script.Tree.eraseSpans_node, map_eraseSpans_otherItems,
      map_eraseSpans_otherItems, hitems]

/-! ## Names -/

theorem map_kind_shadowing? (o : Occurrence) :
    (shadowing? bindings o).map TransformError.kind =
      (Binding.find? bindings o.name).map fun b => .shadowed b.source o.name := by
  rw [shadowing?, Option.map_map]
  rfl

theorem map_kind_findSome?_shadowing? (os : List Occurrence) :
    (os.findSome? (shadowing? bindings)).map TransformError.kind =
      (os.map Occurrence.name).findSome? fun n =>
        (Binding.find? bindings n).map fun b => .shadowed b.source n := by
  rw [List.findSome?_map, List.map_findSome?]
  congr 1
  funext o
  exact map_kind_shadowing? o

theorem agree_checkShadowing (h : t.eraseSpans = u.eraseSpans) :
    Agree Eq (checkShadowing bindings t) (checkShadowing bindings u) := by
  have hnames := eq_of_eraseSpans_eq (fun t => (declarations t).map Occurrence.name)
    declarations_eraseSpans h
  have hfound : ((declarations t).findSome? (shadowing? bindings)).map TransformError.kind =
      ((declarations u).findSome? (shadowing? bindings)).map TransformError.kind := by
    rw [map_kind_findSome?_shadowing?, map_kind_findSome?_shadowing?, hnames]
  unfold checkShadowing
  generalize (declarations t).findSome? (shadowing? bindings) = first at hfound ⊢
  generalize (declarations u).findSome? (shadowing? bindings) = second at hfound ⊢
  cases first with
  | none =>
    cases second with
    | none => exact .ok rfl
    | some e => cases hfound
  | some d =>
    cases second with
    | none => cases hfound
    | some e =>
      have hkind : d.kind = e.kind := Option.some.inj hfound
      refine .error ?_
      rw [TransformError.reason, TransformError.reason, hkind]

/-! ## Sites -/

theorem flatMap_stringOf_eraseSpans (ts : List Tree) :
    (ts.map Tree.eraseSpans).flatMap stringOf = ts.flatMap stringOf := by
  rw [List.flatMap_map]
  exact List.flatMap_congr fun t _ => (sameRoot_eraseSpans t).stringOf_eq

theorem template?_call_singleton (b : Binding) (span : Span) (t : Tree) :
    Site.template? ⟨b, span, .call [t]⟩ = match t.kind with
      | .part .spread => .error ⟨span, .arity b.name⟩
      | .expr (.string value _) => .ok value
      | _ => .error ⟨t.span, .argumentType b.name⟩ := by
  obtain ⟨kind, s, parts⟩ := t
  cases kind with
  | expr k => cases k <;> rfl
  | part k => cases k <;> rfl
  | _ => rfl

theorem agree_template? {a b : Site} (h : a.eraseSpans = b.eraseSpans) :
    Agree Eq a.template? b.template? := by
  obtain ⟨binding, span, form⟩ := a
  obtain ⟨binding', span', form'⟩ := b
  obtain ⟨rfl, -, hform⟩ := Site.mk.inj h
  cases form with
  | tagged placeholders strings =>
    cases form' with
    | call _ => cases hform
    | tagged placeholders' strings' =>
      obtain ⟨hplaceholders, hstrings⟩ := SiteForm.tagged.inj hform
      match placeholders, placeholders', hplaceholders with
      | [], [], _ =>
        refine .ok ?_
        rw [← flatMap_stringOf_eraseSpans strings, hstrings, flatMap_stringOf_eraseSpans]
      | _ :: _, _ :: _, _ => exact .error rfl
  | call arguments =>
    cases form' with
    | tagged _ _ => cases hform
    | call arguments' =>
      have harguments := SiteForm.call.inj hform
      match arguments, arguments', harguments with
      | [], [], _ => exact .error rfl
      | [t], [u], hone =>
        have hkind := eq_of_eraseSpans_eq Tree.kind Tree.kind_eraseSpans
          (List.cons_eq_cons.mp hone).1
        rw [template?_call_singleton, template?_call_singleton, hkind]
        split
        · exact .error rfl
        · exact .ok rfl
        · exact .error rfl
      | [t], u :: v :: us, hone => exact absurd (congrArg List.length hone) (by simp)
      | t :: v :: ts, [u], hone => exact absurd (congrArg List.length hone) (by simp)
      | t :: _ :: _, u :: _ :: _, _ =>
        simp only [Site.template?]
        exact .error rfl

theorem agree_expression? (answer : Answer) (span span' : Span) :
    Agree Eq (answer.expression? span) (answer.expression? span') := by
  cases answer with
  | code c =>
    unfold Answer.expression?
    dsimp only
    split
    · exact .ok rfl
    · exact .error rfl
  | expression t => exact .ok rfl
  | failure message => exact .error rfl

theorem inStep_precompile (p : Precompiler σ) (template : Text) (span span' : Span) :
    (precompile p template span).InStep Eq (precompile p template span') := by
  intro s
  rw [runFrom_precompile, runFrom_precompile]
  exact ⟨rfl, agree_expression? (p template s).1 span span'⟩

def SameTree (t u : Tree) : Prop := t.eraseSpans = u.eraseSpans

theorem inStep_siteExpand (p : Precompiler σ) {a b : Site} (h : a.eraseSpans = b.eraseSpans) :
    (a.expand p).InStep SameTree (b.expand p) := by
  unfold Site.expand
  apply (Work.InStep.liftExcept (agree_template? h)).bind
  rintro template _ rfl
  apply (inStep_precompile p template a.span b.span).bind
  rintro expression _ rfl
  apply Work.InStep.pure
  rw [SameTree, templateCall, templateCall]
  rfl

/-- Expansions of as many sites, with results that are equal up to spans. -/
def SameExpanded (erase : α → α) (a b : Expanded α) : Prop :=
  erase a.result = erase b.result ∧ a.count = b.count

mutual
theorem inStep_expand (p : Precompiler σ) : ∀ {t u : Tree}, t.eraseSpans = u.eraseSpans →
    (expand bindings p t).InStep (SameExpanded Tree.eraseSpans) (expand bindings p u)
  | .node kind span parts, u, h => by
    obtain ⟨span', parts', rfl, hparts⟩ := Tree.of_eraseSpans_node_eq h
    have hsite : (siteOf? bindings (.node kind span parts)).map Site.eraseSpans =
        (siteOf? bindings (.node kind span' parts')).map Site.eraseSpans := by
      rw [← siteOf?_eraseSpans, h, siteOf?_eraseSpans]
    rw [expand, expand]
    generalize siteOf? bindings (.node kind span parts) = first at hsite ⊢
    generalize siteOf? bindings (.node kind span' parts') = second at hsite ⊢
    cases first with
    | none =>
      cases second with
      | some b => cases hsite
      | none =>
        apply (inStep_expandAll p hparts).bind
        rintro inner inner' ⟨hresult, hcount⟩
        refine Work.InStep.pure ⟨?_, hcount⟩
        rw [Script.Tree.eraseSpans_node, Script.Tree.eraseSpans_node, hresult]
    | some a =>
      cases second with
      | none => cases hsite
      | some b =>
        apply (inStep_siteExpand p (Option.some.inj hsite)).bind
        intro call call' hcall
        exact Work.InStep.pure ⟨hcall, rfl⟩

theorem inStep_expandAll (p : Precompiler σ) : ∀ {ts us : List Tree},
    ts.map Tree.eraseSpans = us.map Tree.eraseSpans →
    (expandAll bindings p ts).InStep (SameExpanded (List.map Tree.eraseSpans))
      (expandAll bindings p us)
  | [], [], _ => Work.InStep.pure ⟨rfl, rfl⟩
  | t :: ts, u :: us, h => by
    obtain ⟨hfirst, hothers⟩ := List.cons_eq_cons.mp h
    rw [expandAll, expandAll]
    apply (inStep_expand p hfirst).bind
    rintro first first' ⟨hresult, hcount⟩
    apply (inStep_expandAll p hothers).bind
    rintro others others' ⟨hresults, hcounts⟩
    refine Work.InStep.pure ⟨?_, ?_⟩
    · rw [List.map_cons, List.map_cons, hresult, hresults]
    · rw [hcount, hcounts]
end

/-! ## Modules -/

theorem inStep_module (f : Transform σ) (source source' : Text) (h : t.eraseSpans = u.eraseSpans) :
    (f.module source t).InStep (fun a b => a.1.eraseSpans = b.1.eraseSpans ∧ a.2 = b.2)
      (f.module source' u) := by
  unfold Transform.module
  apply (Work.InStep.liftExcept (agree_trackImports source source' h)).bind
  rintro ⟨found, rest⟩ ⟨_, rest'⟩ ⟨rfl, hrest⟩
  dsimp only
  split
  · exact Work.InStep.pure ⟨hrest, rfl⟩
  · apply (Work.InStep.liftExcept (agree_checkShadowing hrest)).bind
    rintro _ _ -
    apply (inStep_expand f.precompiler hrest).bind
    rintro done done' ⟨hresult, hcount⟩
    refine Work.InStep.pure ⟨hresult, ?_⟩
    rw [hcount]

/-! ## Quotes -/

/-- A quote begins and ends with what is no blank, and leaves out the semicolons at its end. -/
def quoteOf (written : Text) : Text := Text.trimEnd (Text.dropTrailing ';' (Text.trim written))

theorem usedSyntax_eq_quote (source : Text) (item : Tree) :
    usedSyntax source item = quoteOf (if (item.span.slice source).isEmpty then
      Tree.plain false [] (.node (.module none) .nowhere [item]) else item.span.slice source) := by
  unfold usedSyntax quoteOf
  cases hspan : item.span.isNowhere with
  | false => rfl
  | true =>
    have hslice : item.span.slice source = [] := by
      rw [(Span.isNowhere_iff _).mp hspan]
      exact List.take_zero
    rw [hslice]
    rfl

theorem quote_of_runFrom_module {f : Transform σ} {source required used : Text} {m : Tree}
    {span : Span} {s s' : σ}
    (h : (f.module source m).runFrom s = (.error ⟨span, .importForm required used⟩, s')) :
    ∃ item ∈ m.parts, item.span = span ∧ used = usedSyntax source item := by
  rcases runFrom_module_error_iff.mp (congrArg Prod.fst h) with
    ⟨item, hrefused⟩ | ⟨found, rest, o, -, ho⟩ | ⟨u, site, s₁, -, hfault⟩
  · refine ⟨item, hrefused.mem, hrefused.span_eq.symm, ?_⟩
    cases hrefused
    rfl
  · cases ho
  · cases hfault

/-- **Spans are only metadata.** On two modules that are equal up to spans, a transform asks the
precompiler for the same templates in the same order and leaves it in the same state. Either both runs
succeed, with the same summary and with results that are equal up to spans, or both fail for the same
reason. The quote of a refused import is all that an error takes from the source: it is cut out of it
where the import is written there, and else it is the print of the import. -/
theorem spans_are_metadata {f : Transform σ} {m m' : Tree} (h : m.eraseSpans = m'.eraseSpans)
    (source source' : Text) (s : σ) :
    let run := (f.module source m).runFrom s
    let run' := (f.module source' m').runFrom s
    Agree (fun a b => a.1.eraseSpans = b.1.eraseSpans ∧ a.2 = b.2) run.1 run'.1 ∧
      run.2 = run'.2 ∧
      ((f.recorded.module source m).runFrom (s, [])).2.2 =
        ((f.recorded.module source' m').runFrom (s, [])).2.2 ∧
      ∀ span required used, run.1 = .error ⟨span, .importForm required used⟩ →
        ∃ item ∈ m.parts, item.span = span ∧
          used = quoteOf (if (span.slice source).isEmpty then
            Tree.plain false [] (.node (.module none) .nowhere [item]) else span.slice source) := by
  intro run run'
  obtain ⟨hstate, hagree⟩ := inStep_module f source source' h s
  obtain ⟨hrecorded, -⟩ := inStep_module f.recorded source source' h (s, [])
  refine ⟨hagree, hstate, congrArg Prod.snd hrecorded, ?_⟩
  intro span required used hrun
  obtain ⟨item, hitem, hspan, hused⟩ := quote_of_runFrom_module (Prod.ext hrun rfl)
  refine ⟨item, hitem, hspan, ?_⟩
  rw [hused, usedSyntax_eq_quote, hspan]

section
open Sample

/-- `import * as hbs  from 'htmlbars-inline-precompile';` with a blank too many. -/
def Sample.wideSource : Text := text "import * as hbs  from 'htmlbars-inline-precompile';"

def Sample.wideImport : Tree :=
  .item (.import false .evaluation) ⟨1, 52⟩
    [.list [.ofPart .importNamespace ⟨8, 16⟩ [.ofPart (.name tag) ⟨13, 16⟩ []]],
      .ofPart (.string Target.standard.source none) ⟨23, 51⟩ [], .absent]

/-- Without its spans a module fails as it did with them, and quotes the import as it is printed. -/
theorem spans_are_metadata_wideImport :
    let m := moduleOf [wideImport, statement plainUse]
    let run := (transform.module wideSource m).runFrom ()
    let run' := (transform.module [] m.eraseSpans).runFrom ()
    (m ≠ m.eraseSpans ∧ m.eraseSpans = m.eraseSpans.eraseSpans) ∧
    Agree (fun a b => a.1.eraseSpans = b.1.eraseSpans ∧ a.2 = b.2) run.1 run'.1 ∧
    run = (.error ⟨⟨1, 52⟩, .importForm Target.standard.requiredSyntax
      (text "import * as hbs  from 'htmlbars-inline-precompile'")⟩, ()) ∧
    run' = (.error ⟨.nowhere, .importForm Target.standard.requiredSyntax
      (text "import * as hbs from \"htmlbars-inline-precompile\"")⟩, ()) := by
  have herase := (moduleOf [wideImport, statement plainUse]).eraseSpans_eraseSpans
  obtain ⟨hagree, -⟩ := spans_are_metadata (f := transform) herase.symm wideSource [] ()
  exact ⟨⟨by decide, herase.symm⟩, hagree, rfl, rfl⟩

end

end InlineTemplates
