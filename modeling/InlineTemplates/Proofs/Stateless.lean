import InlineTemplates.Proofs.Faces
import InlineTemplates.Proofs.Serving
import InlineTemplates.Proofs.Tracking

/-! # Precompilers that answer by the template alone

Such a precompiler keeps nothing from one call to the next, so what becomes of a site depends on that
site only. Then a run has a description without an order: which items it accepts, and what it makes
of each of them. -/

namespace InlineTemplates

open Script (Tree Kind)

variable {σ : Type} {answer : Text → Answer} {bindings : List Binding} {targets : List Target}

def Precompiler.stateless (answer : Text → Answer) : Precompiler σ :=
  fun template => return answer template

def Transform.stateless (answer : Text → Answer) (targets : List Target) : Transform σ :=
  ⟨.stateless answer, targets⟩

/-! ## What becomes of a site -/

/-- The call for a template that is handed over at a place: none if there is no template, or if the
answer is no expression. -/
def callFor? (answer : Text → Answer) (span : Span) (form : SiteForm) : Option Tree :=
  form.text?.bind fun template =>
    ((answer template).expression? span).toOption.map fun expression =>
      templateCall expression span

/-- The call that a tree becomes: none if it is no site, or one that fails. -/
def callOf? (answer : Text → Answer) (bindings : List Binding) (t : Tree) : Option Tree :=
  (siteOf? bindings t).bind fun site => callFor? answer site.span site.form

/-- The call that a tree becomes, or the tree itself. -/
def callAt (answer : Text → Answer) (bindings : List Binding) (t : Tree) : Tree :=
  (callOf? answer bindings t).getD t

theorem of_callFor? {span : Span} {form : SiteForm} {call : Tree}
    (h : callFor? answer span form = some call) :
    ∃ template expression, form.text? = some template ∧
      (answer template).expression? span = .ok expression ∧ call = templateCall expression span := by
  obtain ⟨template, htext, h⟩ := Option.bind_eq_some_iff.mp h
  obtain ⟨expression, hanswer, rfl⟩ := Option.map_eq_some_iff.mp h
  refine ⟨template, expression, htext, ?_, rfl⟩
  cases hresult : (answer template).expression? span with
  | error e =>
    rw [hresult] at hanswer
    cases hanswer
  | ok e =>
    rw [hresult] at hanswer
    exact congrArg Except.ok (Option.some.inj hanswer)

theorem runFrom_expand_stateless (answer : Text → Answer) (site : Site) (s : σ) :
    ((site.expand (.stateless answer)).runFrom s).1.toOption = callFor? answer site.span site.form ∧
      ((site.expand (.stateless answer)).runFrom s).2 = s := by
  rw [Site.expand, Work.runFrom_bind, Work.runFrom_liftExcept, callFor?, ← template?_toOption]
  cases hread : site.template? with
  | error e => exact ⟨rfl, rfl⟩
  | ok template =>
    simp only [Work.runFrom_bind, runFrom_precompile]
    have hcalled : (Precompiler.stateless answer : Precompiler σ) template s =
        (answer template, s) := rfl
    rw [hcalled]
    dsimp only [Except.toOption, Option.bind_some]
    cases (answer template).expression? site.span with
    | error e => exact ⟨rfl, rfl⟩
    | ok expression => exact ⟨rfl, rfl⟩

/-- A list of sites is expanded just when there is a call for each of them. -/
theorem runFrom_expandSites_stateless_iff {sites : List Site} {calls : List Tree} {s s' : σ} :
    (expandSites (.stateless answer) sites).runFrom s = (.ok calls, s') ↔
      sites.map (fun site => callFor? answer site.span site.form) = calls.map some ∧ s' = s := by
  induction sites generalizing calls with
  | nil =>
    change (Except.ok [], s) = (Except.ok calls, s') ↔ [] = calls.map some ∧ s' = s
    rw [Prod.mk.injEq, Except.ok.injEq]
    constructor
    · rintro ⟨rfl, rfl⟩
      exact ⟨rfl, rfl⟩
    · rintro ⟨hcalls, rfl⟩
      exact ⟨(List.map_eq_nil_iff.mp hcalls.symm).symm, rfl⟩
  | cons site later ih =>
    obtain ⟨hfirst, hstate⟩ := runFrom_expand_stateless answer site s
    rw [expandSites_cons, Work.runFrom_bind, List.map_cons, ← hfirst]
    generalize (site.expand (.stateless answer)).runFrom s = outcome at hstate ⊢
    obtain ⟨r, s₁⟩ := outcome
    obtain rfl : s₁ = s := hstate
    cases r with
    | error e =>
      constructor
      · intro h
        cases h
      · rintro ⟨hcalls, -⟩
        cases calls with
        | nil => cases hcalls
        | cons call calls => cases (List.cons_eq_cons.mp hcalls).1
    | ok call =>
      constructor
      · intro h
        obtain ⟨others, s₂, hothers, hcalls⟩ := Work.of_runFrom_bind_ok h
        cases hcalls
        obtain ⟨hlater, rfl⟩ := ih.mp hothers
        rw [hlater]
        exact ⟨rfl, rfl⟩
      · rintro ⟨hcalls, rfl⟩
        cases calls with
        | nil => cases hcalls
        | cons first others =>
          obtain ⟨hcall, hothers⟩ := List.cons_eq_cons.mp hcalls
          obtain rfl : call = first := Option.some.inj hcall
          simp only [Work.runFrom_bind, ih.mpr ⟨hothers, rfl⟩]
          rfl

/-! ## What becomes of a tree -/

/-- There is a call for each outermost site of the tree. -/
def Expandable (answer : Text → Answer) (bindings : List Binding) (t : Tree) : Prop :=
  ∀ u ∈ outermost bindings t, (callOf? answer bindings u).isSome = true

instance (answer : Text → Answer) (bindings : List Binding) (t : Tree) :
    Decidable (Expandable answer bindings t) :=
  inferInstanceAs (Decidable (∀ u ∈ outermost bindings t, (callOf? answer bindings u).isSome = true))

/-- The tree with the calls in the place of its outermost sites. -/
def expanded (answer : Text → Answer) (bindings : List Binding) (t : Tree) : Tree :=
  (frameOf bindings t).fill ((outermost bindings t).map (callAt answer bindings))

theorem map_eq_map_some_iff {α β : Type} {f : α → Option β} {d : α → β} {xs : List α}
    {ys : List β} : xs.map f = ys.map some ↔
      (∀ x ∈ xs, (f x).isSome = true) ∧ ys = xs.map fun x => (f x).getD (d x) := by
  constructor
  · intro h
    constructor
    · intro x hx
      obtain ⟨y, -, hy⟩ := List.mem_map.mp (h ▸ List.mem_map_of_mem hx)
      rw [← hy]
      rfl
    · apply List.map_injective_iff.mpr fun _ _ => Option.some.inj
      rw [← h, List.map_map]
      refine List.map_congr_left fun x hx => ?_
      obtain ⟨y, -, hy⟩ := List.mem_map.mp (h ▸ List.mem_map_of_mem hx)
      rw [Function.comp_apply, ← hy]
      rfl
  · rintro ⟨hsome, rfl⟩
    rw [List.map_map]
    refine List.map_congr_left fun x hx => ?_
    obtain ⟨y, hy⟩ := Option.isSome_iff_exists.mp (hsome x hx)
    rw [Function.comp_apply, hy]
    rfl

theorem map_callOf? (answer : Text → Answer) {us : List Tree}
    (h : ∀ u ∈ us, ∃ site, siteOf? bindings u = some site) :
    us.map (callOf? answer bindings) =
      (us.filterMap (siteOf? bindings)).map fun site => callFor? answer site.span site.form := by
  induction us with
  | nil => rfl
  | cons u us ih =>
    obtain ⟨site, hsite⟩ := h u List.mem_cons_self
    rw [List.filterMap_cons_some hsite, List.map_cons, List.map_cons,
      ih fun v hv => h v (List.mem_cons_of_mem _ hv), callOf?, hsite]
    rfl

theorem runFrom_outermostSites_stateless_iff {t : Tree} {calls : List Tree} {s s' : σ} :
    (expandSites (.stateless answer) (outermostSites bindings t)).runFrom s = (.ok calls, s') ↔
      Expandable answer bindings t ∧
        calls = (outermost bindings t).map (callAt answer bindings) ∧ s' = s := by
  have hsites := map_callOf? answer fun u (hu : u ∈ outermost bindings t) =>
    siteOf?_of_mem_outermost hu
  rw [runFrom_expandSites_stateless_iff, outermostSites, ← hsites,
    map_eq_map_some_iff (d := id), and_assoc]
  rfl

theorem expanded_of_site {t : Tree} {site : Site} (h : siteOf? bindings t = some site) :
    expanded answer bindings t = callAt answer bindings t := by
  cases t with
  | node kind span parts =>
    rw [expanded, outermost_of_site h, frameOf, h]
    rfl

theorem fillAll_callAt (ts : List Tree) :
    Frame.fillAll (frameOfAll bindings ts)
        ((outermostOfAll bindings ts).map (callAt answer bindings)) =
      ts.map (expanded answer bindings) := by
  induction ts with
  | nil => rfl
  | cons t ts ih =>
    have hlen : ((outermost bindings t).map (callAt answer bindings)).length =
        (frameOf bindings t).holes := by
      rw [List.length_map, holes_frameOf]
    rw [frameOfAll, outermostOfAll, List.map_append, Frame.fillAll_append hlen, ih]
    rfl

theorem expanded_of_none {kind : Kind} {span : Span} {parts : List Tree}
    (h : siteOf? bindings (.node kind span parts) = none) :
    expanded answer bindings (.node kind span parts) =
      .node kind span (parts.map (expanded answer bindings)) := by
  rw [expanded, outermost, frameOf, h]
  exact congrArg (Script.Tree.node kind span) (fillAll_callAt parts)

theorem expanded_of_outermost_nil {t : Tree} (h : outermost bindings t = []) :
    expanded answer bindings t = t := by
  have hfill := fill_outermost bindings t
  rw [h] at hfill
  rw [expanded, h]
  exact hfill

theorem expandable_of_site {t : Tree} {site : Site} (h : siteOf? bindings t = some site) :
    Expandable answer bindings t ↔ (callOf? answer bindings t).isSome = true := by
  rw [Expandable, outermost_of_site h, List.forall_mem_singleton]

theorem expandable_of_none {kind : Kind} {span : Span} {parts : List Tree}
    (h : siteOf? bindings (.node kind span parts) = none) :
    Expandable answer bindings (.node kind span parts) ↔
      ∀ p ∈ parts, Expandable answer bindings p := by
  simp only [Expandable, outermost_of_none h, List.mem_flatMap]
  constructor
  · intro hall p hp u hu
    exact hall u ⟨p, hp, hu⟩
  · rintro hall u ⟨p, hp, hu⟩
    exact hall p hp u hu

/-! ## What becomes of a module -/

/-- The items of a module are taken: the imports of targets can be tracked, and in the other items no
tracked name is declared or assigned and there is a call for each outermost site. -/
structure Passes (answer : Text → Answer) (targets : List Target) (items : List Tree) : Prop where
  trackable : Trackable targets items
  unshadowed : ∀ item ∈ otherItems targets items, ∀ o ∈ declarations item,
    ¬ Tracked (bindingsOf targets items) o.name
  expandable : ∀ item ∈ otherItems targets items,
    Expandable answer (bindingsOf targets items) item

def expandedItems (answer : Text → Answer) (targets : List Target) (items : List Tree) :
    List Tree :=
  (otherItems targets items).map (expanded answer (bindingsOf targets items))

def sitesOfItems (targets : List Target) (items : List Tree) : List Tree :=
  (otherItems targets items).flatMap (outermost (bindingsOf targets items))

def summaryOf (targets : List Target) (items : List Tree) : Summary :=
  ⟨(bindingsOf targets items).length, (sitesOfItems targets items).length⟩

section
variable {hashbang : Option Text} {span : Span} {items : List Tree}

theorem checkShadowing_module : checkShadowing bindings (.node (.module hashbang) span items) =
    .ok () ↔ ∀ item ∈ items, ∀ o ∈ declarations item, ¬ Tracked bindings o.name := by
  have hall : declarations (.node (.module hashbang) span items) = items.flatMap declarations := by
    rw [← declarationsOfAll_eq_flatMap]
    rfl
  rw [checkShadowing_eq_ok_iff_declarations, hall]
  simp only [List.mem_flatMap]
  constructor
  · intro h item hitem o ho
    exact h o ⟨item, hitem, ho⟩
  · rintro h o ⟨item, hitem, ho⟩
    exact h item hitem o ho

theorem siteOf?_module : siteOf? bindings (.node (.module hashbang) span items) = none :=
  siteOf?_of_kind (by simp) (by simp)

/-- **What a run does with a precompiler that answers by the template alone.** It succeeds just when
the items are taken, whatever their order, and each item that is left becomes what it becomes by
itself. -/
theorem runFrom_module_stateless_iff {source : Text} {result : Tree} {done : Summary} {s s' : σ} :
    ((Transform.stateless answer targets).module source
        (.node (.module hashbang) span items)).runFrom s = (.ok (result, done), s') ↔
      Passes answer targets items ∧
        result = .node (.module hashbang) span (expandedItems answer targets items) ∧
        done = summaryOf targets items ∧ s' = s := by
  have htrack : ∀ found rest, trackImports targets source (.node (.module hashbang) span items) =
        .ok (found, rest) ↔ Trackable targets items ∧ found = bindingsOf targets items ∧
          rest = .node (.module hashbang) span (otherItems targets items) :=
    fun found rest => trackImports_eq_ok_iff
  have hexpandable : Expandable answer (bindingsOf targets items)
        (.node (.module hashbang) span (otherItems targets items)) ↔
      ∀ item ∈ otherItems targets items, Expandable answer (bindingsOf targets items) item :=
    expandable_of_none siteOf?_module
  have hresult : expanded answer (bindingsOf targets items)
        (.node (.module hashbang) span (otherItems targets items)) =
      .node (.module hashbang) span (expandedItems answer targets items) :=
    expanded_of_none siteOf?_module
  have hsites : outermost (bindingsOf targets items)
      (.node (.module hashbang) span (otherItems targets items)) = sitesOfItems targets items :=
    outermost_of_none siteOf?_module
  constructor
  · intro h
    obtain ⟨found, rest, calls, htracked, hcheck, hrun, rfl, rfl⟩ := of_runFrom_module_ok h
    obtain ⟨htrackable, rfl, rfl⟩ := (htrack _ _).mp htracked
    obtain ⟨hcalls, rfl, rfl⟩ := runFrom_outermostSites_stateless_iff.mp hrun
    refine ⟨⟨htrackable, checkShadowing_module.mp hcheck, hexpandable.mp hcalls⟩, hresult, ?_, rfl⟩
    rw [List.length_map, summaryOf, ← hsites]
  · rintro ⟨⟨htrackable, hunshadowed, hcalls⟩, rfl, rfl, rfl⟩
    have hcheck : checkShadowing (bindingsOf targets items)
        (.node (.module hashbang) span (otherItems targets items)) = .ok () :=
      checkShadowing_module.mpr hunshadowed
    have hrun := runFrom_outermostSites_stateless_iff (s := s').mpr
      ⟨hexpandable.mpr hcalls, rfl, rfl⟩
    have htracked := (htrack _ _).mpr ⟨htrackable, rfl, rfl⟩
    have hdone := runFrom_module_ok (f := Transform.stateless answer targets) htracked hcheck hrun
    rw [List.length_map, hsites] at hdone
    rw [hdone, ← hresult, expanded, hsites]
    rfl

end

end InlineTemplates
