import InlineTemplates.Proofs.Faces
import InlineTemplates.Proofs.Imports
import InlineTemplates.Proofs.ModuleRun
import InlineTemplates.Proofs.Sample
import InlineTemplates.Proofs.Serving
import InlineTemplates.Proofs.ValueNodes

/-! # The two forms of a use are interchangeable

A tag before a template and a call with one string hand over the same text. A run does not tell them
apart, wherever the use stands and whatever else happens in the module. -/

namespace InlineTemplates

open Script (Tree Kind)

variable {σ : Type} {names : Text → Prop} {bindings : List Binding}

/-! ## Modules that differ in the forms of uses -/

inductive IsTypeArgs : Tree → Prop
  | none {s} : IsTypeArgs (.node .absent s [])
  | types {s ts} (h : ∀ t ∈ ts, t.kind.isErased = true) :
      IsTypeArgs (.node (.part .typeArgs) s ts)

/-- The tree hands over a template under a name: it is a tagged template without placeholders, or a
call with one string literal. -/
inductive HandsOver (name template : Text) (span : Span) : Tree → Prop
  | tagged {s s₁ s₂ s₃ typeArgs strings} (htypes : IsTypeArgs typeArgs)
      (hstrings : ∀ q ∈ strings, q.isQuasi = true ∧ q.parts = [])
      (htext : strings.flatMap stringOf = template) :
      HandsOver name template span (.node (.expr .tagged) span
        [.node (.expr (.name name)) s [], typeArgs,
          .node (.expr .template) s₁ [.node .list s₂ [], .node .list s₃ strings]])
  | call {s s₁ s₂ raw typeArgs} (htypes : IsTypeArgs typeArgs) :
      HandsOver name template span (.node (.expr .call) span
        [.node (.expr (.name name)) s [],
          .node .list s₁ [.node (.expr (.string template raw)) s₂ []], typeArgs])

mutual
/-- The trees are alike, except that some uses of the names have another form. -/
inductive AlikeButForms (names : Text → Prop) : Tree → Tree → Prop
  | use {name template span t u} (hname : names name) (ht : HandsOver name template span t)
      (hu : HandsOver name template span u) : AlikeButForms names t u
  | node {kind span ts us} (h : AllAlikeButForms names ts us) :
      AlikeButForms names (.node kind span ts) (.node kind span us)

inductive AllAlikeButForms (names : Text → Prop) : List Tree → List Tree → Prop
  | nil : AllAlikeButForms names [] []
  | cons {t u ts us} (h : AlikeButForms names t u) (hs : AllAlikeButForms names ts us) :
      AllAlikeButForms names (t :: ts) (u :: us)
end

mutual
theorem AlikeButForms.refl : ∀ t : Tree, AlikeButForms names t t
  | .node _ _ parts => .node (AllAlikeButForms.refl parts)

theorem AllAlikeButForms.refl : ∀ ts : List Tree, AllAlikeButForms names ts ts
  | [] => .nil
  | t :: ts => .cons (AlikeButForms.refl t) (AllAlikeButForms.refl ts)
end

/-! ## Roots and spans -/

section
variable {t u : Tree} {ts us : List Tree}

theorem HandsOver.isApplied {name template : Text} {span : Span}
    (h : HandsOver name template span t) : t.kind.isApplied = true := by
  cases h <;> rfl

theorem HandsOver.span_eq {name template : Text} {span : Span}
    (h : HandsOver name template span t) : t.span = span := by
  cases h <;> rfl

theorem AlikeButForms.sameRoot (h : AlikeButForms names t u) : SameRoot t u := by
  cases h with
  | use _ ht hu => exact .inr ⟨ht.isApplied, hu.isApplied⟩
  | node _ => exact .inl rfl

theorem AlikeButForms.span_eq (h : AlikeButForms names t u) : t.span = u.span := by
  cases h with
  | use _ ht hu => rw [ht.span_eq, hu.span_eq]
  | node _ => rfl

theorem AllAlikeButForms.sameFaces : ∀ {ts us : List Tree},
    AllAlikeButForms names ts us → List.Forall₂ SameFace ts us
  | _, _, .nil => .nil
  | _, _, .cons h hs => .cons ⟨h.sameRoot, h.span_eq⟩ hs.sameFaces

theorem AlikeButForms.of_kind {kind : Kind} {span : Span} {parts : List Tree}
    (h : AlikeButForms names (.node kind span parts) u) (hkind : kind.isApplied = false) :
    ∃ others, u = .node kind span others ∧ AllAlikeButForms names parts others := by
  cases h with
  | use _ ht _ => exact absurd (hkind.symm.trans ht.isApplied) (by simp)
  | node h => exact ⟨_, rfl, h⟩

end

/-! ## Declared names -/

theorem declarationsOfAll_of_isErased {ts : List Tree} (h : ∀ t ∈ ts, t.kind.isErased = true) :
    declarationsOfAll ts = [] := by
  induction ts with
  | nil => rfl
  | cons t ts ih =>
    obtain ⟨ht, hts⟩ := List.forall_mem_cons.mp h
    cases t with
    | node kind span parts =>
      have hkind : kind.isErased = true := ht
      rw [declarationsOfAll, ih hts, declarations, isTypeOnly_eq_isErased, if_pos hkind]
      rfl

theorem declarationsOfAll_of_isQuasi {ts : List Tree}
    (h : ∀ q ∈ ts, q.isQuasi = true ∧ q.parts = []) : declarationsOfAll ts = [] := by
  induction ts with
  | nil => rfl
  | cons t ts ih =>
    obtain ⟨⟨hquasi, hparts⟩, hts⟩ := List.forall_mem_cons.mp h
    cases t with
    | node kind span parts =>
      obtain ⟨tail, cooked, raw, rfl⟩ := Tree.of_isQuasi hquasi
      obtain rfl : parts = [] := hparts
      rw [declarationsOfAll, ih hts]
      rfl

theorem IsTypeArgs.declarations_eq {t : Tree} (h : IsTypeArgs t) : declarations t = [] := by
  cases h with
  | none => rfl
  | types h => exact declarationsOfAll_of_isErased h

theorem HandsOver.declarations_eq {name template : Text} {span : Span} {t : Tree}
    (h : HandsOver name template span t) : declarations t = [] := by
  cases h with
  | tagged htypes hstrings _ =>
    simp [declarations, declarationsOfAll, htypes.declarations_eq,
      declarationsOfAll_of_isQuasi hstrings, isTypeOnly, ownDeclaration?]
  | call htypes =>
    simp [declarations, declarationsOfAll, htypes.declarations_eq, isTypeOnly, ownDeclaration?]

mutual
theorem AlikeButForms.declarations_eq : ∀ {t u : Tree},
    AlikeButForms names t u → declarations t = declarations u
  | _, _, .use _ ht hu => by rw [ht.declarations_eq, hu.declarations_eq]
  | _, _, .node h => by
    rw [declarations, declarations, ownDeclaration?_congr h.sameFaces, h.declarations_eq]

theorem AllAlikeButForms.declarations_eq : ∀ {ts us : List Tree},
    AllAlikeButForms names ts us → declarationsOfAll ts = declarationsOfAll us
  | _, _, .nil => rfl
  | _, _, .cons h hs => by
    rw [declarationsOfAll, declarationsOfAll, h.declarations_eq, hs.declarations_eq]
end

/-! ## Sites -/

theorem HandsOver.request_eq {name template : Text} {span : Span} {t : Tree}
    (h : HandsOver name template span t) (hname : Tracked bindings name) :
    ∃ site, siteOf? bindings t = some site ∧ site.request = (span, .ok template) := by
  obtain ⟨b, hb⟩ : ∃ b, Binding.find? bindings name = some b := by
    rw [← Option.isSome_iff_exists, Binding.find?, List.find?_isSome]
    simpa [Tracked] using hname
  cases h with
  | @tagged _ _ _ _ _ strings _ _ htext =>
    refine ⟨⟨b, span, .tagged [] strings⟩, ?_, ?_⟩
    · simp [siteOf?, plainName?, hb, Tree.items, Tree.part]
    · simp [Site.request, Site.template?, htext]
  | @call _ _ s₂ raw _ _ =>
    refine ⟨⟨b, span, .call [.node (.expr (.string template raw)) s₂ []]⟩, ?_, rfl⟩
    simp [siteOf?, plainName?, hb]

theorem template?_tagged_alike {b : Binding} {span : Span} {ps qs ss ts : List Tree}
    (hplaceholders : AllAlikeButForms names ps qs) (hstrings : AllAlikeButForms names ss ts) :
    Site.template? ⟨b, span, .tagged ps ss⟩ = Site.template? ⟨b, span, .tagged qs ts⟩ := by
  cases hplaceholders with
  | nil => exact congrArg Except.ok (flatMap_stringOf_congr hstrings.sameFaces)
  | cons h _ =>
    have hplace := h.span_eq
    simp only [Site.template?, hplace]

theorem template?_call_alike {b : Binding} {span : Span} {ts us : List Tree}
    (h : AllAlikeButForms names ts us) :
    Site.template? ⟨b, span, .call ts⟩ = Site.template? ⟨b, span, .call us⟩ := by
  cases h with
  | nil => rfl
  | cons h hs =>
    cases hs with
    | cons _ _ => simp [Site.template?]
    | nil =>
      cases h with
      | use _ ht hu => cases ht <;> cases hu <;> rfl
      | @node kind _ _ _ _ =>
        cases kind with
        | expr k => cases k <;> rfl
        | part k => cases k <;> rfl
        | _ => rfl

theorem items_alike {t u : Tree} (hwell : t.isWellFormed = true) (hkind : t.kind = .expr .template)
    (h : AlikeButForms names t u) : AllAlikeButForms names (t.items 0) (u.items 0) ∧
      AllAlikeButForms names (t.items 1) (u.items 1) := by
  cases t with
  | node kind span parts =>
    obtain rfl : kind = .expr .template := hkind
    obtain ⟨s₁, placeholders, s₂, strings, rfl, -⟩ :=
      Script.Kind.of_admits_template (Tree.isWellFormed_node.mp hwell).1
    obtain ⟨_, rfl, hparts⟩ := h.of_kind rfl
    obtain _ | ⟨hfirst, _ | ⟨hsecond, _ | _⟩⟩ := hparts
    obtain ⟨placeholders', rfl, hplaceholders⟩ := hfirst.of_kind rfl
    obtain ⟨strings', rfl, hstrings⟩ := hsecond.of_kind rfl
    exact ⟨hplaceholders, hstrings⟩

theorem request_of_name {name? : Option Text} {form form' : SiteForm} {span : Span}
    (h : ∀ b, Site.template? ⟨b, span, form⟩ = Site.template? ⟨b, span, form'⟩) :
    (name?.bind fun n => (Binding.find? bindings n).map fun b => (⟨b, span, form⟩ : Site)).map
        Site.request =
      (name?.bind fun n => (Binding.find? bindings n).map fun b => (⟨b, span, form'⟩ : Site)).map
        Site.request := by
  cases name? with
  | none => rfl
  | some n =>
    cases hb : Binding.find? bindings n with
    | none => simp [hb]
    | some b => simp [hb, Site.request, h b]

theorem AlikeButForms.request_eq {t u : Tree} (hnames : ∀ n, names n → Tracked bindings n)
    (hwell : t.isWellFormed = true) (h : AlikeButForms names t u) :
    (siteOf? bindings t).map Site.request = (siteOf? bindings u).map Site.request := by
  cases h with
  | use hname ht hu =>
    obtain ⟨a, ha, hrequest⟩ := ht.request_eq (hnames _ hname)
    obtain ⟨b, hb, hrequest'⟩ := hu.request_eq (hnames _ hname)
    rw [ha, hb, Option.map_some, Option.map_some, hrequest, hrequest']
  | @node kind span ts us hparts =>
    obtain ⟨hadmits, hinner⟩ := Tree.isWellFormed_node.mp hwell
    rw [Tree.areWellFormed_iff] at hinner
    by_cases htagged : kind = .expr .tagged
    · subst htagged
      obtain ⟨head, typeArgs, template, rfl, -, hkind⟩ := Script.Kind.of_admits_tagged hadmits
      obtain _ | ⟨hhead, _ | ⟨_, _ | ⟨htemplate, _ | _⟩⟩⟩ := hparts
      obtain ⟨hplaceholders, hstrings⟩ := items_alike (hinner template (by simp)) hkind htemplate
      rw [siteOf?_tagged, siteOf?_tagged, hhead.sameRoot.plainName?_eq]
      exact request_of_name fun b => template?_tagged_alike hplaceholders hstrings
    · by_cases hcall : kind = .expr .call
      · subst hcall
        obtain ⟨head, place, arguments, typeArgs, rfl, -⟩ := Script.Kind.of_admits_call hadmits
        obtain _ | ⟨hhead, _ | ⟨hlist, _⟩⟩ := hparts
        obtain ⟨arguments', rfl, harguments⟩ := hlist.of_kind rfl
        rw [siteOf?_call, siteOf?_call, hhead.sameRoot.plainName?_eq]
        exact request_of_name fun b => template?_call_alike harguments
      · rw [siteOf?_of_kind htagged hcall, siteOf?_of_kind htagged hcall]

mutual
theorem AlikeButForms.outermost_eq (hnames : ∀ n, names n → Tracked bindings n) : ∀ {t u : Tree},
    t.isWellFormed = true → AlikeButForms names t u →
    frameOf bindings t = frameOf bindings u ∧
      (outermostSites bindings t).map Site.request = (outermostSites bindings u).map Site.request
  | .node kind span parts, .node kind' span' parts', hwell, h => by
    have hrequest := h.request_eq hnames hwell
    cases ha : siteOf? bindings (.node kind span parts) with
    | some a =>
      rw [ha, Option.map_some, eq_comm, Option.map_eq_some_iff] at hrequest
      obtain ⟨b, hb, hsame⟩ := hrequest
      rw [frameOf, frameOf, ha, hb, outermostSites_of_site ha, outermostSites_of_site hb]
      exact ⟨rfl, congrArg (fun r => [r]) hsame.symm⟩
    | none =>
      rw [ha, Option.map_none, eq_comm, Option.map_eq_none_iff] at hrequest
      rw [frameOf, frameOf, ha, hrequest, outermostSites_of_none ha,
        outermostSites_of_none hrequest]
      cases h with
      | use hname ht _ =>
        obtain ⟨site, hsite, -⟩ := ht.request_eq (hnames _ hname)
        cases ha.symm.trans hsite
      | node hparts =>
        obtain ⟨hframes, hsites⟩ :=
          hparts.outermost_eq hnames (Tree.isWellFormed_node.mp hwell).2
        exact ⟨congrArg (Frame.node kind span) hframes, hsites⟩

theorem AllAlikeButForms.outermost_eq (hnames : ∀ n, names n → Tracked bindings n) :
    ∀ {ts us : List Tree}, Tree.areWellFormed ts = true → AllAlikeButForms names ts us →
    frameOfAll bindings ts = frameOfAll bindings us ∧
      (outermostSitesOfAll bindings ts).map Site.request =
        (outermostSitesOfAll bindings us).map Site.request
  | _, _, _, .nil => ⟨rfl, rfl⟩
  | _, _, hwell, .cons h hs => by
    rw [Tree.areWellFormed, Bool.and_eq_true] at hwell
    obtain ⟨hframe, hsites⟩ := h.outermost_eq hnames hwell.1
    obtain ⟨hframes, hothers⟩ := hs.outermost_eq hnames hwell.2
    rw [frameOfAll, frameOfAll, hframe, hframes, outermostSitesOfAll_cons,
      outermostSitesOfAll_cons, List.map_append, List.map_append, hsites, hothers]
    exact ⟨rfl, rfl⟩
end

/-! ## Imports -/

theorem AlikeButForms.importTarget?_eq {targets : List Target} {t u : Tree}
    (h : AlikeButForms names t u) : importTarget? targets t = importTarget? targets u := by
  rw [importTarget?, importTarget?]
  cases h with
  | use _ ht hu => cases ht <;> cases hu <;> rfl
  | node hparts =>
    rw [importSource?_congr hparts.sameFaces.length_eq]
    obtain _ | ⟨_, _ | ⟨hsecond, _⟩⟩ := hparts
    · rfl
    · rfl
    · exact hsecond.sameRoot.stringValue?_eq

theorem specifierName?_alike {target : Target} {t u : Tree} (h : AlikeButForms names t u) :
    specifierName? target t = specifierName? target u := by
  cases h with
  | use _ ht hu =>
    rw [specifierName?_of_isApplied ht.isApplied, specifierName?_of_isApplied hu.isApplied]
  | node hparts => exact specifierName?_congr hparts.sameFaces

theorem soleName?_alike {target : Target} {t u : Tree} (h : AlikeButForms names t u) :
    soleName? target t = soleName? target u := by
  cases h with
  | use _ ht hu => cases ht <;> cases hu <;> rfl
  | node hparts =>
    obtain _ | ⟨hspecifier, _ | _⟩ := hparts
    · rfl
    · exact specifierName?_alike hspecifier
    · rfl

theorem AlikeButForms.acceptedName?_eq {target : Target} {t u : Tree}
    (h : AlikeButForms names t u) : acceptedName? target t = acceptedName? target u := by
  cases h with
  | use _ ht hu => cases ht <;> cases hu <;> rfl
  | @node kind _ _ _ hparts =>
    cases kind with
    | item k =>
      cases k with
      | «import» typeOnly phase =>
        cases typeOnly with
        | false =>
          rw [acceptedName?_import, acceptedName?_import]
          cases hparts with
          | nil => rfl
          | cons hfirst _ => exact soleName?_alike hfirst
        | true => rfl
      | _ => rfl
    | _ => rfl

/-! ## Tracking -/

/-- The outcomes are the same, or both refuse the same import and only quote it in other words. -/
inductive SameUpToQuote {α : Type} : Except TransformError α → Except TransformError α → Prop
  | same (r) : SameUpToQuote r r
  | quote {span required used used'} :
      SameUpToQuote (.error ⟨span, .importForm required used⟩)
        (.error ⟨span, .importForm required used'⟩)

theorem SameUpToQuote.error {α β : Type} {e e' : TransformError}
    (h : SameUpToQuote (.error e : Except TransformError α) (.error e')) :
    SameUpToQuote (.error e : Except TransformError β) (.error e') := by
  cases h with
  | same => exact .same _
  | quote => exact .quote

theorem bindingOf_alike {target : Target} {source : Text} {found : List Binding} {t u : Tree}
    (h : AlikeButForms names t u) :
    SameUpToQuote (bindingOf source found target t) (bindingOf source found target u) := by
  rw [bindingOf, bindingOf, h.acceptedName?_eq, h.span_eq]
  cases acceptedName? target u with
  | none => exact .quote
  | some name => exact .same _

theorem AllAlikeButForms.bindingsAfter_eq {targets : List Target} {source : Text} :
    ∀ {ts us : List Tree} (found : List Binding), AllAlikeButForms names ts us →
      SameUpToQuote (bindingsAfter targets source found ts) (bindingsAfter targets source found us)
  | _, _, _, .nil => .same _
  | t :: ts, u :: us, found, .cons h hs => by
    rw [bindingsAfter, bindingsAfter, h.importTarget?_eq]
    cases importTarget? targets u with
    | none => exact hs.bindingsAfter_eq found
    | some target =>
      have hfirst : SameUpToQuote (bindingOf source found target t)
          (bindingOf source found target u) := bindingOf_alike h
      dsimp only
      generalize bindingOf source found target t = r at hfirst ⊢
      generalize bindingOf source found target u = r' at hfirst ⊢
      cases hfirst with
      | quote => exact .quote
      | same =>
        cases r with
        | error e => exact .same _
        | ok b => exact hs.bindingsAfter_eq _

theorem AllAlikeButForms.bindingsAfter_eq_of_imports {targets : List Target} {source : Text} :
    ∀ {ts us : List Tree} (found : List Binding), AllAlikeButForms names ts us →
      ts.filter (importsFrom targets) = us.filter (importsFrom targets) →
      bindingsAfter targets source found ts = bindingsAfter targets source found us
  | _, _, _, .nil, _ => rfl
  | t :: ts, u :: us, found, .cons h hs, himports => by
    have htarget : importTarget? targets t = importTarget? targets u := h.importTarget?_eq
    rw [List.filter_cons, List.filter_cons, importsFrom_eq_isSome, importsFrom_eq_isSome,
      htarget] at himports
    rw [bindingsAfter, bindingsAfter, htarget]
    cases hu : importTarget? targets u with
    | none =>
      rw [hu] at himports
      exact hs.bindingsAfter_eq_of_imports found himports
    | some target =>
      rw [hu] at himports
      obtain ⟨rfl, hothers⟩ := List.cons_eq_cons.mp himports
      cases hb : bindingOf source found target t with
      | error e => simp only [hb]
      | ok b =>
        simp only [hb]
        exact hs.bindingsAfter_eq_of_imports _ hothers

theorem AllAlikeButForms.otherItems {targets : List Target} : ∀ {ts us : List Tree},
    AllAlikeButForms names ts us →
      AllAlikeButForms names (otherItems targets ts) (otherItems targets us)
  | _, _, .nil => .nil
  | t :: ts, u :: us, .cons h hs => by
    have hrest : AllAlikeButForms names (InlineTemplates.otherItems targets ts)
        (InlineTemplates.otherItems targets us) := hs.otherItems
    have htarget : importTarget? targets t = importTarget? targets u := h.importTarget?_eq
    unfold InlineTemplates.otherItems at hrest ⊢
    rw [List.filter_cons, List.filter_cons, htarget]
    cases importTarget? targets u with
    | none => exact .cons h hrest
    | some target => exact hrest

theorem trackImports_alike {source : Text} {m m' : Tree} (targets : List Target)
    (hm : m.isModule = true) (h : AlikeButForms names m m') :
    (∃ e e', trackImports targets source m = .error e ∧ trackImports targets source m' = .error e' ∧
      SameUpToQuote (.error e : Except TransformError Unit) (.error e') ∧
      (m.parts.filter (importsFrom targets) = m'.parts.filter (importsFrom targets) → e = e')) ∨
    ∃ bindings rest rest', trackImports targets source m = .ok (bindings, rest) ∧
      trackImports targets source m' = .ok (bindings, rest') ∧ AlikeButForms names rest rest' := by
  unfold Tree.isModule at hm
  split at hm
  · next hashbang span items =>
    obtain ⟨items', rfl, hitems⟩ := h.of_kind rfl
    have hbindings : SameUpToQuote (bindingsAfter targets source [] items)
        (bindingsAfter targets source [] items') := hitems.bindingsAfter_eq []
    have himports : items.filter (importsFrom targets) = items'.filter (importsFrom targets) →
        bindingsAfter targets source [] items = bindingsAfter targets source [] items' :=
      hitems.bindingsAfter_eq_of_imports []
    simp only [trackImports, Tree.parts_node, Tree.kind_node, Tree.span_node]
    generalize bindingsAfter targets source [] items = r at hbindings himports ⊢
    generalize bindingsAfter targets source [] items' = r' at hbindings himports ⊢
    cases hbindings with
    | quote =>
      exact .inl ⟨_, _, rfl, rfl, .quote, fun hfilter => Except.error.inj (himports hfilter)⟩
    | same =>
      cases r with
      | error e => exact .inl ⟨e, e, rfl, rfl, .same _, fun _ => rfl⟩
      | ok bindings => exact .inr ⟨bindings, _, _, rfl, rfl, .node hitems.otherItems⟩
  · cases hm

/-! ## The run of a transform -/

/-- A run does not tell alike modules apart, up to the quote of a refused import. -/
theorem runFrom_module_alike {f : Transform σ} {source : Text} {m m' : Tree}
    (hm : m.isModule = true) (halike : AlikeButForms names m m')
    (hnames : ∀ bindings rest, trackImports f.targets source m = .ok (bindings, rest) →
      ∀ n, names n → Tracked bindings n) (s : σ) :
    SameUpToQuote ((f.module source m).runFrom s).1 ((f.module source m').runFrom s).1 ∧
      ((f.module source m).runFrom s).2 = ((f.module source m').runFrom s).2 ∧
      (m.parts.filter (importsFrom f.targets) = m'.parts.filter (importsFrom f.targets) →
        (f.module source m).runFrom s = (f.module source m').runFrom s) := by
  rcases trackImports_alike f.targets hm halike with
    ⟨e, e', he, he', hsame, himports⟩ | ⟨bindings, rest, rest', hrest, hrest', hothers⟩
  · rw [runFrom_module_of_import_error he, runFrom_module_of_import_error he']
    exact ⟨hsame.error, rfl, fun hfilter => by rw [himports hfilter]⟩
  · have hwell := isWellFormed_rest hm hrest
    obtain ⟨hframe, hsites⟩ := hothers.outermost_eq (hnames bindings rest hrest) hwell
    have hcheck : checkShadowing bindings rest = checkShadowing bindings rest' := by
      rw [checkShadowing, checkShadowing, hothers.declarations_eq]
    have hrun : (f.module source m).runFrom s = (f.module source m').runFrom s := by
      rw [runFrom_module hrest, runFrom_module hrest', hcheck, hframe, expandSites_congr hsites]
    rw [hrun]
    exact ⟨.same _, rfl, fun _ => rfl⟩

/-- **The two forms of a use are interchangeable.** Of two modules that differ only in the forms of
uses of tracked names, a run makes the same: the same result and summary or the same error, from the
same calls of the precompiler. Where the imports cannot be tracked, no use is one yet, and all names
may vary; then a use inside the import that is refused may show in its quote, but nowhere else. -/
theorem forms_interchangeable {f : Transform σ} {source : Text} {m m' : Tree}
    (hm : m.isModule = true) (halike : AlikeButForms names m m')
    (hnames : ∀ bindings rest, trackImports f.targets source m = .ok (bindings, rest) →
      ∀ n, names n → Tracked bindings n) (s : σ) :
    SameUpToQuote ((f.module source m).runFrom s).1 ((f.module source m').runFrom s).1 ∧
      ((f.module source m).runFrom s).2 = ((f.module source m').runFrom s).2 ∧
      ((f.recorded.module source m).runFrom (s, [])).2 =
        ((f.recorded.module source m').runFrom (s, [])).2 ∧
      (m.parts.filter (importsFrom f.targets) = m'.parts.filter (importsFrom f.targets) →
        (f.module source m).runFrom s = (f.module source m').runFrom s) := by
  obtain ⟨houtcome, hstate, himports⟩ := runFrom_module_alike hm halike hnames s
  have hrecorded := runFrom_module_alike (f := f.recorded) hm halike hnames (s, [])
  exact ⟨houtcome, hstate, hrecorded.2.1, himports⟩

section
open Sample

/-- A tag before a template whose only string has an escape that cannot be read. -/
def Sample.taggedUse : Tree :=
  .expr .tagged plainUse.span [word tag, .absent,
    .expr .template .nowhere
      [.list [], .list [.ofPart (.quasi true none (text "\\u")) .nowhere []]]]

def Sample.calledUse : Tree := callOf tag [literal (text "\\u")] .absent plainUse.span

/-- A use, and then the same use as the argument of another one, which is an error. -/
def Sample.twoUses (use : Tree) : Tree :=
  moduleOf [tagImport, statement use, statement (callOf tag [use] .absent .nowhere)]

theorem alike_uses : AlikeButForms (· = tag) taggedUse calledUse := by
  refine .use rfl (.tagged .none ?_ rfl) (.call .none)
  exact List.forall_mem_singleton.mpr ⟨rfl, rfl⟩

/-- Both runs ask for the template of the first use and fail at the second one. -/
theorem forms_interchangeable_twoUses :
    let m := twoUses taggedUse
    let m' := twoUses calledUse
    let outcome : Except TransformError (Tree × Summary) :=
      .error ⟨plainUse.span, .argumentType tag⟩
    (m.isModule = true ∧ AlikeButForms (· = tag) m m' ∧
      ∀ bindings rest, trackImports transform.targets [] m = .ok (bindings, rest) →
        ∀ n, n = tag → Tracked bindings n) ∧
    (SameUpToQuote outcome ((transform.module [] m').runFrom ()).1 ∧
      ((transform.module [] m).runFrom ()).2 = ((transform.module [] m').runFrom ()).2 ∧
      (((), [text "\\u"]) : Unit × List Text) =
        ((transform.recorded.module [] m').runFrom ((), [])).2 ∧
      (transform.module [] m).runFrom () = (transform.module [] m').runFrom ()) := by
  have halike : AlikeButForms (· = tag) (twoUses taggedUse) (twoUses calledUse) :=
    .node (.cons (.refl _) (.cons (.node (.cons alike_uses .nil)) (.cons (.node (.cons
      (.node (.cons (.refl _) (.cons (.node (.cons alike_uses .nil)) (.cons (.refl _) .nil))))
      .nil)) .nil)))
  have hnames : ∀ bindings rest,
      trackImports transform.targets [] (twoUses taggedUse) = .ok (bindings, rest) →
        ∀ n, n = tag → Tracked bindings n := by
    rintro bindings rest h n rfl
    cases h
    exact ⟨_, List.mem_singleton_self _, rfl⟩
  obtain ⟨houtcome, hstate, hasked, himports⟩ :=
    forms_interchangeable (f := transform) rfl halike hnames ()
  exact ⟨⟨rfl, halike, hnames⟩, houtcome, hstate, hasked, himports rfl⟩

end

end InlineTemplates
