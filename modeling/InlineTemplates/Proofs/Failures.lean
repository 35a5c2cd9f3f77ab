import InlineTemplates.Proofs.ModuleRun
import InlineTemplates.Proofs.Imports
import InlineTemplates.Proofs.Serving
import InlineTemplates.Proofs.Untouched

/-! # Where the failures of a run come from

A run fails at the first import that it refuses, at the first tracked name that is declared or assigned,
or at the first site that cannot be expanded after those before it. -/

namespace InlineTemplates

open Script (Tree Kind fragment?)

variable {σ : Type} {targets : List Target} {bindings : List Binding} {source : Text}
  {e : TransformError}

/-! ## Imports -/

/-- An item imports from a target and is refused: it has not the form that the target accepts, or
there is a binding of the same module or of the same name before it. -/
inductive RefusedImport (targets : List Target) (source : Text) (found : List Binding)
    (items : List Tree) : Tree → TransformError → Prop where
  | form {earlier item later before target} (hitems : items = earlier ++ item :: later)
      (hbefore : bindingsAfter targets source found earlier = .ok before)
      (htarget : importTarget? targets item = some target)
      (hform : acceptedName? target item = none) :
      RefusedImport targets source found items item
        ⟨item.span, .importForm target.requiredSyntax (usedSyntax source item)⟩
  | duplicate {earlier item later before target name b} (hitems : items = earlier ++ item :: later)
      (hbefore : bindingsAfter targets source found earlier = .ok before)
      (htarget : importTarget? targets item = some target)
      (hname : acceptedName? target item = some name)
      (hb : b ∈ before) (hsame : b.source = target.source ∨ b.name = name) :
      RefusedImport targets source found items item
        ⟨item.span, .duplicateImport target.source name⟩

section
variable {found : List Binding} {items : List Tree} {item : Tree}

theorem RefusedImport.mem (h : RefusedImport targets source found items item e) :
    item ∈ items := by
  cases h with
  | form hitems | duplicate hitems =>
    rw [hitems]
    exact List.mem_append_right _ List.mem_cons_self

theorem RefusedImport.span_eq (h : RefusedImport targets source found items item e) :
    e.span = item.span := by
  cases h with
  | form | duplicate => rfl

theorem RefusedImport.cons {first : Tree} {before : List Binding}
    (h : RefusedImport targets source before items item e)
    (hfirst : ∀ rest, bindingsAfter targets source found (first :: rest) =
      bindingsAfter targets source before rest) :
    RefusedImport targets source found (first :: items) item e := by
  cases h with
  | form hitems hbefore htarget hform =>
    exact .form (congrArg (first :: ·) hitems) ((hfirst _).trans hbefore) htarget hform
  | duplicate hitems hbefore htarget hname hb hsame =>
    exact .duplicate (congrArg (first :: ·) hitems) ((hfirst _).trans hbefore) htarget hname hb hsame

theorem refused_of_bindingOf {target : Target} {rest : List Tree}
    (htarget : importTarget? targets item = some target)
    (h : bindingOf source found target item = .error e) :
    RefusedImport targets source found (item :: rest) item e := by
  unfold bindingOf at h
  split at h
  · next hform =>
    cases h
    exact .form (List.nil_append _).symm rfl htarget hform
  · next name hname =>
    split at h
    · next hany =>
      cases h
      obtain ⟨b, hb, hsame⟩ := List.any_eq_true.mp hany
      rw [Bool.or_eq_true, beq_iff_eq, beq_iff_eq] at hsame
      exact .duplicate (List.nil_append _).symm rfl htarget hname hb hsame
    · cases h

end

theorem of_bindingsAfter_error {items : List Tree} :
    ∀ {found : List Binding}, bindingsAfter targets source found items = .error e →
      ∃ item, RefusedImport targets source found items item e := by
  induction items with
  | nil =>
    intro found h
    cases h
  | cons item rest ih =>
    intro found h
    rw [bindingsAfter] at h
    split at h
    · next hnone =>
      obtain ⟨other, hrefused⟩ := ih h
      refine ⟨other, hrefused.cons fun items => ?_⟩
      rw [bindingsAfter, hnone]
    · next target htarget =>
      split at h
      · next d hbinding =>
        cases h
        exact ⟨item, refused_of_bindingOf htarget hbinding⟩
      · next b hbinding =>
        obtain ⟨other, hrefused⟩ := ih h
        refine ⟨other, hrefused.cons fun items => ?_⟩
        rw [bindingsAfter, htarget]
        simp only [hbinding]

theorem bindingsAfter_append {found before : List Binding} {earlier : List Tree}
    (h : bindingsAfter targets source found earlier = .ok before) (items : List Tree) :
    bindingsAfter targets source found (earlier ++ items) =
      bindingsAfter targets source before items := by
  induction earlier generalizing found with
  | nil =>
    cases h
    rfl
  | cons item rest ih =>
    rw [bindingsAfter] at h
    rw [List.cons_append, bindingsAfter]
    split at h
    · exact ih h
    · split at h
      · cases h
      · exact ih h

theorem RefusedImport.bindingsAfter_eq {found : List Binding} {items : List Tree} {item : Tree}
    (h : RefusedImport targets source found items item e) :
    bindingsAfter targets source found items = .error e := by
  cases h with
  | form hitems hbefore htarget hform =>
    rw [hitems, bindingsAfter_append hbefore, bindingsAfter, htarget]
    simp only [bindingOf, hform]
  | @duplicate earlier _ later before target name b hitems hbefore htarget hname hb hsame =>
    have hany : (before.any fun b => b.source == target.source || b.name == name) = true := by
      rw [List.any_eq_true]
      refine ⟨b, hb, ?_⟩
      rwa [Bool.or_eq_true, beq_iff_eq, beq_iff_eq]
    rw [hitems, bindingsAfter_append hbefore, bindingsAfter, htarget]
    simp only [bindingOf, hname, hany, if_true]

theorem of_trackImports_error {m : Tree} (h : trackImports targets source m = .error e) :
    ∃ item, RefusedImport targets source [] m.parts item e := by
  unfold trackImports at h
  split at h
  · next d hbindings =>
    cases h
    exact of_bindingsAfter_error hbindings
  · cases h

theorem RefusedImport.trackImports_eq {m item : Tree}
    (h : RefusedImport targets source [] m.parts item e) :
    trackImports targets source m = .error e := by
  rw [trackImports, h.bindingsAfter_eq]

/-! ## Names -/

/-- Among these names a tracked one is the first, and gives this error. -/
inductive FirstShadowing (bindings : List Binding) (names : List Occurrence) (o : Occurrence) :
    TransformError → Prop where
  | intro {earlier later b} (hnames : names = earlier ++ o :: later)
      (hearlier : ∀ other ∈ earlier, Binding.find? bindings other.name = none)
      (hb : Binding.find? bindings o.name = some b) :
      FirstShadowing bindings names o ⟨o.span, .shadowed b.source o.name⟩

theorem FirstShadowing.mem {names : List Occurrence} {o : Occurrence}
    (h : FirstShadowing bindings names o e) : o ∈ names := by
  cases h with
  | intro hnames =>
    rw [hnames]
    exact List.mem_append_right _ List.mem_cons_self

theorem FirstShadowing.span_eq {names : List Occurrence} {o : Occurrence}
    (h : FirstShadowing bindings names o e) : e.span = o.span := by
  cases h
  rfl

theorem checkShadowing_error_iff {m : Tree} :
    checkShadowing bindings m = .error e ↔
      ∃ o, FirstShadowing bindings (declarations m) o e := by
  have hfound : checkShadowing bindings m = .error e ↔
      (declarations m).findSome? (shadowing? bindings) = some e := by
    unfold checkShadowing
    split
    · next d hd => rw [hd, Except.error.injEq, Option.some.injEq]
    · next hd => simp [hd]
  rw [hfound, List.findSome?_eq_some_iff]
  constructor
  · rintro ⟨earlier, o, later, hnames, ho, hearlier⟩
    obtain ⟨b, hb, rfl⟩ := Option.map_eq_some_iff.mp ho
    exact ⟨o, .intro hnames (fun other hother => Option.map_eq_none_iff.mp (hearlier other hother)) hb⟩
  · rintro ⟨o, ⟨hnames, hearlier, hb⟩⟩
    refine ⟨_, o, _, hnames, ?_, fun other hother => ?_⟩
    · rw [shadowing?, hb]
      rfl
    · rw [shadowing?, hearlier other hother]
      rfl

/-! ## Sites -/

/-- The errors of a site that is expanded in a state of the precompiler: it hands over no template,
the precompiler fails for its template, or answers it with code that is no expression. -/
inductive Site.Fault (p : Precompiler σ) (s : σ) (site : Site) : TransformError → Prop where
  | placeholder {first others strings} (hform : site.form = .tagged (first :: others) strings) :
      Fault p s site ⟨first.span, .placeholder⟩
  | arity {arguments} (hform : site.form = .call arguments)
      (hnone : ∀ argument, arguments = [argument] → argument.kind = .part .spread) :
      Fault p s site ⟨site.span, .arity site.binding.name⟩
  | argumentType {argument} (hform : site.form = .call [argument])
      (hspread : argument.kind ≠ .part .spread)
      (hstring : ∀ value raw, argument.kind ≠ .expr (.string value raw)) :
      Fault p s site ⟨argument.span, .argumentType site.binding.name⟩
  | precompile {template message} (hread : site.template? = .ok template)
      (hanswer : (p template s).1 = .failure message) :
      Fault p s site ⟨site.span, .precompile message⟩
  | output {template code d} (hread : site.template? = .ok template)
      (hanswer : (p template s).1 = .code code) (hcode : fragment? code = .error d) :
      Fault p s site ⟨site.span, .output code d.kind⟩

section
variable {p : Precompiler σ} {s : σ} {site : Site}

theorem fault_of_template? (h : site.template? = .error e) : site.Fault p s e := by
  unfold Site.template? at h
  split at h
  · next first others strings hform =>
    cases h
    exact .placeholder hform
  · cases h
  · next span parts hform =>
    cases h
    refine .arity hform fun argument hone => ?_
    rw [← (List.cons_eq_cons.mp hone).1]
    rfl
  · cases h
  · next argument hspread hstring hform =>
    cases h
    refine .argumentType hform ?_ ?_
    · cases argument
      rintro rfl
      exact hspread _ _ rfl
    · cases argument
      rintro value raw rfl
      exact hstring _ _ _ _ rfl
  · next arguments hspread hstring hone hform =>
    cases h
    exact .arity hform fun argument heq => absurd heq (hone argument)

theorem fault_of_expression? {template : Text} (hread : site.template? = .ok template)
    (h : (p template s).1.expression? site.span = .error e) : site.Fault p s e := by
  unfold Answer.expression? at h
  split at h
  · next code hanswer =>
    split at h
    · cases h
    · next d hcode =>
      cases h
      exact .output hread hanswer hcode
  · cases h
  · next message hanswer =>
    cases h
    exact .precompile hread hanswer

theorem template?_of_arity {arguments : List Tree} (hform : site.form = .call arguments)
    (hnone : ∀ argument, arguments = [argument] → argument.kind = .part .spread) :
    site.template? = .error ⟨site.span, .arity site.binding.name⟩ := by
  rw [Site.template?, hform]
  split
  · next heq => cases heq
  · next heq => cases heq
  · rfl
  · next heq => cases heq; cases hnone _ rfl
  · next argument hspread _ heq =>
    cases heq
    obtain ⟨kind, span, parts⟩ := argument
    obtain rfl : kind = .part .spread := hnone _ rfl
    exact absurd rfl (hspread span parts)
  · rfl

theorem template?_of_argumentType {argument : Tree} (hform : site.form = .call [argument])
    (hspread : argument.kind ≠ .part .spread)
    (hstring : ∀ value raw, argument.kind ≠ .expr (.string value raw)) :
    site.template? = .error ⟨argument.span, .argumentType site.binding.name⟩ := by
  rw [Site.template?, hform]
  split
  · next heq => cases heq
  · next heq => cases heq
  · next heq => cases heq; exact absurd rfl hspread
  · next value raw _ _ heq => cases heq; exact absurd rfl (hstring value raw)
  · next heq => cases heq; rfl
  · next hone heq => cases heq; exact absurd rfl (hone _)

theorem fault_iff : site.Fault p s e ↔ ((site.expand p).runFrom s).1 = .error e := by
  have hexpand : ((site.expand p).runFrom s).1 =
      site.template?.bind fun template => ((p template s).1.expression? site.span).map
        (templateCall · site.span) := by
    rw [Site.expand, Work.runFrom_bind, Work.runFrom_liftExcept]
    cases site.template? with
    | error d => rfl
    | ok template =>
      simp only [Work.runFrom_bind, runFrom_precompile]
      cases h : (p template s).1.expression? site.span <;> simp [Except.bind, h] <;> rfl
  rw [hexpand]
  constructor
  · intro h
    cases h with
    | placeholder hform =>
      rw [Site.template?, hform]
      rfl
    | arity hform hnone =>
      rw [template?_of_arity hform hnone]
      rfl
    | argumentType hform hspread hstring =>
      rw [template?_of_argumentType hform hspread hstring]
      rfl
    | precompile hread hanswer =>
      rw [hread, Except.bind, hanswer]
      rfl
    | output hread hanswer hcode =>
      rw [hread, Except.bind, hanswer, expression?_code, hcode]
      rfl
  · intro h
    cases hread : site.template? with
    | error d =>
      rw [hread] at h
      cases h
      exact fault_of_template? hread
    | ok template =>
      rw [hread, Except.bind] at h
      cases hanswer : (p template s).1.expression? site.span with
      | error d =>
        rw [hanswer] at h
        cases h
        exact fault_of_expression? hread hanswer
      | ok expression =>
        rw [hanswer] at h
        cases h

theorem of_runFrom_expandSites_error {sites : List Site} {s' : σ} :
    ∀ {s : σ}, (expandSites p sites).runFrom s = (.error e, s') →
      ∃ earlier site later calls s₁, sites = earlier ++ site :: later ∧
        Expansions p s earlier calls s₁ ∧ site.Fault p s₁ e := by
  induction sites with
  | nil =>
    intro s h
    cases h
  | cons site later ih =>
    intro s h
    rw [expandSites_cons, Work.runFrom_bind] at h
    split at h
    · next call s₁ hcall =>
      rw [Work.runFrom_bind] at h
      split at h
      · cases h
      · next d s₂ hlater =>
        cases h
        obtain ⟨earlier, other, rest, calls, s₃, rfl, hexpansions, hfault⟩ := ih hlater
        obtain ⟨template, expression, hread, hgiven, rfl⟩ := of_runFrom_siteExpand_ok hcall
        exact ⟨site :: earlier, other, rest, _, s₃, rfl, .cons hread hgiven hexpansions, hfault⟩
    · next d s₁ hcall =>
      cases h
      exact ⟨[], site, later, [], s, rfl, .nil, fault_iff.mpr (congrArg Prod.fst hcall)⟩

theorem runFrom_expandSites_of_fault {earlier : List Site} {calls : List Tree} {s₁ : σ}
    (h : Expansions p s earlier calls s₁) (hfault : site.Fault p s₁ e) (later : List Site) :
    ((expandSites p (earlier ++ site :: later)).runFrom s).1 = .error e := by
  induction h with
  | nil =>
    have hexpand := fault_iff.mp hfault
    rw [List.nil_append, expandSites_cons, Work.runFrom_bind]
    split
    · next hcall =>
      rw [hcall] at hexpand
      cases hexpand
    · next hcall =>
      rw [hcall] at hexpand
      exact congrArg _ (Except.error.inj hexpand)
  | cons read given others ih =>
    have hcall := runFrom_siteExpand_ok read given
    rw [List.cons_append, expandSites_cons, Work.runFrom_bind, hcall]
    dsimp only
    rw [Work.runFrom_bind]
    have hlater := ih hfault
    split
    · next hrun =>
      rw [hrun] at hlater
      cases hlater
    · next hrun =>
      rw [hrun] at hlater
      exact hlater

end

/-! ## Runs -/

/-- A run gets as far as a construct that is a site: the imports are taken, no tracked name is declared
or assigned, and the sites before it have been expanded, which leaves the precompiler in a state. -/
inductive ComesTo (f : Transform σ) (source : Text) (m : Tree) (s : σ) (u : Tree) (site : Site)
    (s₁ : σ) : Prop where
  | intro {bindings rest earlier later calls}
      (htrack : trackImports f.targets source m = .ok (bindings, rest))
      (hnames : checkShadowing bindings rest = .ok ())
      (hsites : outermost bindings rest = earlier ++ u :: later)
      (hsite : siteOf? bindings u = some site)
      (hearlier : Expansions f.precompiler s (earlier.filterMap (siteOf? bindings)) calls s₁) :
      ComesTo f source m s u site s₁

section
variable {f : Transform σ} {m rest : Tree} {s : σ}

theorem ComesTo.span_eq {u : Tree} {site : Site} {s₁ : σ} (h : ComesTo f source m s u site s₁) :
    site.span = u.span := by
  obtain ⟨-, -, -, hsite, -⟩ := h
  exact (span_of_siteOf? hsite).symm

theorem runFrom_module_of_names (htrack : trackImports f.targets source m = .ok (bindings, rest))
    (h : checkShadowing bindings rest = .error e) :
    ((f.module source m).runFrom s).1 = .error e := by
  rw [runFrom_module htrack, h]

theorem runFrom_module_of_fault {u : Tree} {site : Site} {s₁ : σ}
    (h : ComesTo f source m s u site s₁) (hfault : site.Fault f.precompiler s₁ e) :
    ((f.module source m).runFrom s).1 = .error e := by
  obtain @⟨bindings, rest, earlier, later, calls, htrack, hnames, hsites, hsite, hearlier⟩ := h
  have hrun := runFrom_expandSites_of_fault hearlier hfault (later.filterMap (siteOf? bindings))
  rw [← List.filterMap_cons_some hsite, ← List.filterMap_append, ← hsites] at hrun
  rw [runFrom_module htrack, hnames, outermostSites]
  dsimp only
  split
  · next hfails =>
    rw [hfails] at hrun
    exact congrArg _ (Except.error.inj hrun)
  · next hexpands =>
    rw [hexpands] at hrun
    cases hrun

theorem comesTo_of_runFrom {s' : σ} (htrack : trackImports f.targets source m = .ok (bindings, rest))
    (hnames : checkShadowing bindings rest = .ok ())
    (h : (expandSites f.precompiler (outermostSites bindings rest)).runFrom s = (.error e, s')) :
    ∃ u site s₁, ComesTo f source m s u site s₁ ∧ site.Fault f.precompiler s₁ e := by
  obtain ⟨earlier, site, later, calls, s₁, hsites, hearlier, hfault⟩ :=
    of_runFrom_expandSites_error h
  rw [outermostSites, List.filterMap_eq_append_iff] at hsites
  obtain ⟨before, behind, hsplit, rfl, hbehind⟩ := hsites
  obtain ⟨others, u, after, rfl, hothers, hsite, -⟩ := List.filterMap_eq_cons_iff.mp hbehind
  have hfilter : (before ++ others).filterMap (siteOf? bindings) =
      before.filterMap (siteOf? bindings) := by
    rw [List.filterMap_append, List.filterMap_eq_nil_iff.mpr hothers, List.append_nil]
  rw [← List.append_assoc] at hsplit
  exact ⟨u, site, s₁, .intro htrack hnames hsplit hsite (hfilter ▸ hearlier), hfault⟩

/-- **A run fails with this error** where the first import that is refused has it, or, once the imports
are taken, the first tracked name that is declared or assigned, or else the first site that cannot be
expanded. -/
theorem runFrom_module_error_iff :
    ((f.module source m).runFrom s).1 = .error e ↔
      (∃ item, RefusedImport f.targets source [] m.parts item e) ∨
      (∃ bindings rest o, trackImports f.targets source m = .ok (bindings, rest) ∧
        FirstShadowing bindings (declarations rest) o e) ∨
      ∃ u site s₁, ComesTo f source m s u site s₁ ∧ site.Fault f.precompiler s₁ e := by
  constructor
  · intro h
    cases htrack : trackImports f.targets source m with
    | error d =>
      rw [runFrom_module_of_import_error htrack] at h
      cases h
      exact .inl (of_trackImports_error htrack)
    | ok found =>
      obtain ⟨bindings, rest⟩ := found
      rw [runFrom_module htrack] at h
      split at h
      · next d hcheck =>
        cases h
        obtain ⟨o, ho⟩ := checkShadowing_error_iff.mp hcheck
        exact .inr (.inl ⟨bindings, rest, o, rfl, ho⟩)
      · next hnames =>
        split at h
        · next d s₁ hrun =>
          cases h
          exact .inr (.inr (comesTo_of_runFrom htrack hnames hrun))
        · cases h
  · rintro (⟨item, h⟩ | ⟨bindings, rest, o, htrack, h⟩ | ⟨u, site, s₁, h, hfault⟩)
    · rw [runFrom_module_of_import_error h.trackImports_eq]
    · exact runFrom_module_of_names htrack (checkShadowing_error_iff.mpr ⟨o, h⟩)
    · exact runFrom_module_of_fault h hfault

end

end InlineTemplates
