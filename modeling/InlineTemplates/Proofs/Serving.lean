import InlineTemplates.Proofs.Imports
import InlineTemplates.Proofs.ModuleRun
import InlineTemplates.Proofs.Sample
import InlineTemplates.Proofs.SiteShape

/-! # Sites are served one after the other

A run asks the precompiler as if it went through a plain list of sites: all sites in the order of a
traversal, those inside others too, but none in the type arguments of another site. A site that holds
another one in its placeholders or arguments is an error, so the list never gets to the inner one. -/

namespace InlineTemplates

open Script (Tree Kind)

variable {σ : Type}

/-! ## The reference -/

/-- What came of a list of sites: the failure that ended it, the templates that the precompiler was
asked for, and the state that this left. -/
structure Served (σ : Type) where
  failure : Option TransformError
  asked : List Text
  state : σ
deriving DecidableEq

/-- Goes through the sites. Each has its template read, then the precompiler is asked for it, and the
answer has to be an expression. The first failure is the end. -/
def serve (p : Precompiler σ) : List Site → σ → Served σ
  | [], s => ⟨none, [], s⟩
  | site :: later, s =>
    match site.template? with
    | .error e => ⟨some e, [], s⟩
    | .ok template =>
      let answered := p template s
      match answered.1.expression? site.span with
      | .error e => ⟨some e, [template], answered.2⟩
      | .ok _ =>
        let others := serve p later answered.2
        { others with asked := template :: others.asked }

def Precompiler.recorded (p : Precompiler σ) : Precompiler (σ × List Text) :=
  fun template (s, asked) =>
    let (answer, s₁) := p template s
    (answer, s₁, asked ++ [template])

def Transform.recorded (f : Transform σ) : Transform (σ × List Text) :=
  ⟨f.precompiler.recorded, f.targets⟩

mutual
/-- The sites of a tree, each before those inside it. What stands in the type arguments of a site goes
with them and is none. -/
def servedSites (bindings : List Binding) : Tree → List Site
  | .node kind span parts =>
    match siteOf? bindings (.node kind span parts) with
    | some site => site :: servedSitesOfAll bindings true parts
    | none => servedSitesOfAll bindings false parts

/-- The sites of the parts of a node, which is a site or not. -/
def servedSitesOfAll (bindings : List Binding) (ofSite : Bool) : List Tree → List Site
  | [] => []
  | t :: ts =>
    (if ofSite && t.isTypeArgs then [] else servedSites bindings t) ++
      servedSitesOfAll bindings ofSite ts
end

/-- Whether none of these nodes is a site with type arguments, as in a script without types. -/
def sitesUntyped (bindings : List Binding) (us : List Tree) : Bool :=
  us.all fun u => (siteOf? bindings u).isNone || u.parts.all fun p => !p.isTypeArgs

section
variable {bindings : List Binding}

theorem servedSitesOfAll_of_untyped :
    ∀ {ts : List Tree}, (ts.all fun t => !t.isTypeArgs) = true →
      servedSitesOfAll bindings true ts = servedSitesOfAll bindings false ts
  | [], _ => rfl
  | t :: ts, h => by
    rw [List.all_cons, Bool.and_eq_true, Bool.not_eq_true'] at h
    rw [servedSitesOfAll, servedSitesOfAll, h.1, servedSitesOfAll_of_untyped h.2]
    rfl

mutual
theorem servedSites_eq_sites :
    ∀ {t : Tree}, sitesUntyped bindings t.nodes = true → servedSites bindings t = sites bindings t
  | .node kind span parts, h => by
    rw [Tree.nodes, sitesUntyped, List.all_cons, Bool.and_eq_true] at h
    have hinner := servedSitesOfAll_eq_sites h.2
    rw [servedSites, sites, Tree.nodes]
    cases hsite : siteOf? bindings (.node kind span parts) with
    | some site =>
      have hparts : (parts.all fun p => !p.isTypeArgs) = true := by simpa [hsite] using h.1
      rw [List.filterMap_cons_some hsite, ← hinner, ← servedSitesOfAll_of_untyped hparts]
    | none => rw [List.filterMap_cons_none hsite, ← hinner]

theorem servedSitesOfAll_eq_sites :
    ∀ {ts : List Tree}, sitesUntyped bindings (Tree.nodesAll ts) = true →
      servedSitesOfAll bindings false ts = (Tree.nodesAll ts).filterMap (siteOf? bindings)
  | [], _ => rfl
  | t :: ts, h => by
    rw [Tree.nodesAll, sitesUntyped, List.all_append, Bool.and_eq_true] at h
    rw [servedSitesOfAll, Tree.nodesAll, List.filterMap_append, servedSites_eq_sites h.1,
      servedSitesOfAll_eq_sites h.2]
    rfl
end

end

/-- The outcome of a run with this summary, unless a site failed. -/
def Served.outcome (served : Served σ) (done : Summary) : Except TransformError Summary :=
  match served.failure with
  | some e => .error e
  | none => .ok done

/-! ## Laws of serving -/

theorem serve_append_congr {p : Precompiler σ} {ys zs : List Site}
    (h : ∀ s, serve p ys s = serve p zs s) :
    ∀ (xs : List Site) (s : σ), serve p (xs ++ ys) s = serve p (xs ++ zs) s
  | [], s => h s
  | site :: xs, s => by
    simp only [List.cons_append, serve, serve_append_congr h xs]

section
variable {p : Precompiler σ} {site : Site} {template : Text} {s : σ}

theorem serve_of_template_error {e : TransformError} (h : site.template? = .error e)
    (later : List Site) : serve p (site :: later) s = ⟨some e, [], s⟩ := by
  rw [serve, h]

theorem serve_of_answer_error {e : TransformError} (hread : site.template? = .ok template)
    (hanswer : (p template s).1.expression? site.span = .error e) (later : List Site) :
    serve p (site :: later) s = ⟨some e, [template], (p template s).2⟩ := by
  rw [serve, hread]
  simp only [hanswer]

theorem serve_of_answer_ok {expression : Tree} (hread : site.template? = .ok template)
    (hanswer : (p template s).1.expression? site.span = .ok expression) (later : List Site) :
    serve p (site :: later) s =
      { serve p later (p template s).2 with
        asked := template :: (serve p later (p template s).2).asked } := by
  rw [serve, hread]
  simp only [hanswer]

end

theorem template?_of_served {p : Precompiler σ} :
    ∀ {sites : List Site} {s : σ}, (serve p sites s).failure = none →
      ∀ site ∈ sites, ∃ template, site.template? = .ok template
  | [], s, _ => by simp
  | site :: later, s, h => by
    cases hread : site.template? with
    | error e => simp [serve_of_template_error hread] at h
    | ok template =>
      cases hanswer : (p template s).1.expression? site.span with
      | error e => simp [serve_of_answer_error hread hanswer] at h
      | ok expression =>
        rw [serve_of_answer_ok hread hanswer] at h
        exact List.forall_mem_cons.mpr ⟨⟨template, hread⟩, template?_of_served h⟩

theorem serve_recorded (p : Precompiler σ) :
    ∀ (sites : List Site) (s : σ) (log : List Text), serve p.recorded sites (s, log) =
      ⟨(serve p sites s).failure, (serve p sites s).asked,
        (serve p sites s).state, log ++ (serve p sites s).asked⟩
  | [], s, log => by simp [serve]
  | site :: later, s, log => by
    cases hread : site.template? with
    | error e => simp [serve_of_template_error hread]
    | ok template =>
      have hrecorded : p.recorded template (s, log) =
          ((p template s).1, (p template s).2, log ++ [template]) := rfl
      cases hanswer : (p template s).1.expression? site.span with
      | error e =>
        rw [serve_of_answer_error hread hanswer, serve_of_answer_error hread (by rwa [hrecorded]),
          hrecorded]
      | ok expression =>
        rw [serve_of_answer_ok hread hanswer, serve_of_answer_ok hread (by rwa [hrecorded]),
          hrecorded, serve_recorded p later]
        simp

/-! ## Expansion serves the outermost sites -/

theorem serve_eq_runFrom_expandSites (p : Precompiler σ) :
    ∀ (sites : List Site) (s : σ), ∃ asked, serve p sites s =
      match (expandSites p sites).runFrom s with
      | (.ok _, s') => ⟨none, asked, s'⟩
      | (.error e, s') => ⟨some e, asked, s'⟩
  | [], s => ⟨[], rfl⟩
  | site :: later, s => by
    rw [expandSites_cons, Work.runFrom_bind, Site.expand, Work.runFrom_bind,
      Work.runFrom_liftExcept]
    cases hread : site.template? with
    | error e => exact ⟨[], serve_of_template_error hread later⟩
    | ok template =>
      simp only [Work.runFrom_bind, runFrom_precompile]
      cases hanswer : (p template s).1.expression? site.span with
      | error e => exact ⟨[template], serve_of_answer_error hread hanswer later⟩
      | ok expression =>
        obtain ⟨asked, ih⟩ := serve_eq_runFrom_expandSites p later (p template s).2
        refine ⟨template :: asked, ?_⟩
        rw [serve_of_answer_ok hread hanswer, ih]
        simp only [Work.runFrom_pure]
        cases (expandSites p later).runFrom (p template s).2 with
        | mk r s' => cases r <;> rfl

/-! ## Sites inside sites -/

section
variable {bindings : List Binding}

theorem servedSites_of_kind {kind : Kind} {span : Span} {parts : List Tree}
    (htagged : kind ≠ .expr .tagged) (hcall : kind ≠ .expr .call) :
    servedSites bindings (.node kind span parts) = servedSitesOfAll bindings false parts := by
  rw [servedSites, siteOf?_of_kind htagged hcall]

theorem servedSitesOfAll_of_quasis :
    ∀ {ts : List Tree}, ts.all (·.isQuasi) = true → Tree.areWellFormed ts = true →
      servedSitesOfAll bindings false ts = []
  | [], _, _ => rfl
  | .node kind span parts :: ts, hquasi, hwell => by
    rw [List.all_cons, Bool.and_eq_true] at hquasi
    rw [Tree.areWellFormed, Bool.and_eq_true, Tree.isWellFormed_node] at hwell
    obtain ⟨⟨hadmits, -⟩, hothers⟩ := hwell
    obtain ⟨tail, cooked, raw, rfl⟩ := Tree.of_isQuasi hquasi.1
    obtain rfl : parts = [] := by simpa [Kind.admits] using hadmits
    rw [servedSitesOfAll, servedSitesOfAll_of_quasis hquasi.2 hothers,
      servedSites_of_kind (by simp) (by simp)]
    rfl

theorem servedSites_of_plainName {t : Tree} {name : Text} (hwell : t.isWellFormed = true)
    (h : plainName? t = some name) : servedSites bindings t = [] := by
  obtain ⟨span, parts, rfl⟩ := of_plainName? h
  obtain rfl : parts = [] := by
    simpa [Kind.admits] using (Tree.isWellFormed_node.mp hwell).1
  rw [servedSites_of_kind (by simp) (by simp)]
  rfl

theorem servedSitesOfAll_cons_of_plainName {t : Tree} {ts : List Tree} {name : Text}
    {ofSite : Bool} (hwell : t.isWellFormed = true) (h : plainName? t = some name) :
    servedSitesOfAll bindings ofSite (t :: ts) = servedSitesOfAll bindings ofSite ts := by
  rw [servedSitesOfAll, servedSites_of_plainName hwell h, ite_self]
  rfl

theorem servedSites_of_string {value : Text} {raw : Option Text} {span : Span} {parts : List Tree}
    (hwell : (Script.Tree.node (.expr (.string value raw)) span parts).isWellFormed = true) :
    servedSites bindings (.node (.expr (.string value raw)) span parts) = [] := by
  obtain rfl : parts = [] := by
    simpa [Kind.admits] using (Tree.isWellFormed_node.mp hwell).1
  rw [servedSites_of_kind (by simp) (by simp)]
  rfl

theorem servedSitesOfAll_of_typeArgs {t : Tree} {ts : List Tree} (hwell : t.isWellFormed = true)
    (h : (t.isAbsent || t.isTypeArgs) = true) :
    servedSitesOfAll bindings true (t :: ts) = servedSitesOfAll bindings true ts := by
  cases htype : t.isTypeArgs with
  | true => simp [servedSitesOfAll, htype]
  | false =>
    rw [htype, Bool.or_false] at h
    obtain ⟨span, parts, rfl⟩ := Tree.of_isAbsent h
    obtain rfl : parts = [] := by
      simpa [Kind.admits] using (Tree.isWellFormed_node.mp hwell).1
    rw [servedSitesOfAll, htype, servedSites_of_kind (by simp) (by simp)]
    rfl

theorem servedSites_of_template {t : Tree} (hwell : t.isWellFormed = true)
    (hkind : t.kind = .expr .template) (hplain : t.items 0 = []) :
    servedSites bindings t = [] := by
  cases t with
  | node kind span parts =>
    obtain rfl : kind = .expr .template := hkind
    obtain ⟨hadmits, hparts⟩ := Tree.isWellFormed_node.mp hwell
    obtain ⟨s₁, placeholders, s₂, strings, rfl, hquasi⟩ := Kind.of_admits_template hadmits
    obtain rfl : placeholders = [] := hplain
    have hlist : (Script.Tree.node .list s₂ strings).isWellFormed = true :=
      Tree.areWellFormed_iff.mp hparts _ (by simp)
    rw [servedSites_of_kind (by simp) (by simp)]
    simp only [servedSitesOfAll, Bool.false_and, Bool.false_eq_true, if_false]
    rw [servedSites_of_kind (by simp) (by simp), servedSites_of_kind (by simp) (by simp),
      servedSitesOfAll_of_quasis hquasi (Tree.isWellFormed_node.mp hlist).2]
    rfl

/-- **A site with a template holds no other site.** -/
theorem servedSitesOfAll_of_template? {kind : Kind} {span : Span} {parts : List Tree} {site : Site}
    {text : Text} (hwell : (Script.Tree.node kind span parts).isWellFormed = true)
    (hsite : siteOf? bindings (.node kind span parts) = some site)
    (hread : site.template? = .ok text) : servedSitesOfAll bindings true parts = [] := by
  obtain ⟨hadmits, hparts⟩ := Tree.isWellFormed_node.mp hwell
  rw [Tree.areWellFormed_iff] at hparts
  rcases of_siteOf? hsite with
    ⟨head, typeArgs, template, name, heq, hname, -, hform⟩ |
    ⟨head, arguments, others, name, heq, hname, -, hform⟩
  · obtain ⟨rfl, -, rfl⟩ := Script.Tree.node.inj heq
    obtain ⟨_, _, _, hshape, htype, hkind⟩ := Kind.of_admits_tagged hadmits
    simp only [List.cons.injEq, and_true] at hshape
    obtain ⟨rfl, rfl, rfl⟩ := hshape
    have hplain : template.items 0 = [] := placeholders_of_template? hform hread
    rw [servedSitesOfAll_cons_of_plainName (hparts head (by simp)) hname,
      servedSitesOfAll_of_typeArgs (hparts typeArgs (by simp)) htype]
    simp [servedSitesOfAll, servedSites_of_template (hparts template (by simp)) hkind hplain]
  · obtain ⟨rfl, -, rfl⟩ := Script.Tree.node.inj heq
    obtain ⟨_, listSpan, given, typeArgs, hshape, htype⟩ := Kind.of_admits_call hadmits
    simp only [List.cons.injEq] at hshape
    obtain ⟨rfl, rfl, rfl⟩ := hshape
    obtain ⟨raw, literalSpan, literalParts, rfl⟩ := arguments_of_template? hform hread
    have hlist := hparts
      (.node .list listSpan [.node (.expr (.string text raw)) literalSpan literalParts]) (by simp)
    have hliteral := Tree.areWellFormed_iff.mp (Tree.isWellFormed_node.mp hlist).2 _
      (List.mem_singleton_self _)
    rw [servedSitesOfAll_cons_of_plainName (hparts head (by simp)) hname, servedSitesOfAll,
      servedSitesOfAll_of_typeArgs (hparts typeArgs (by simp)) htype,
      servedSites_of_kind (by simp) (by simp)]
    simp [Tree.isTypeArgs, servedSitesOfAll, servedSites_of_string hliteral]

end

/-! ## Inner sites change nothing -/

mutual
theorem serve_servedSites (bindings : List Binding) (p : Precompiler σ) :
    ∀ (t : Tree) (later : List Site) (s : σ), t.isWellFormed = true →
      serve p (servedSites bindings t ++ later) s =
        serve p (outermostSites bindings t ++ later) s
  | .node kind span parts, later, s, hwell => by
    cases h : siteOf? bindings (.node kind span parts) with
    | some site =>
      rw [servedSites, h, outermostSites_of_site h]
      cases hread : site.template? with
      | error e =>
        exact (serve_of_template_error hread _).trans (serve_of_template_error hread _).symm
      | ok template =>
        rw [servedSitesOfAll_of_template? hwell h hread]
    | none =>
      rw [servedSites, h, outermostSites_of_none h]
      exact serve_servedSitesOfAll bindings p parts later s (Tree.isWellFormed_node.mp hwell).2

theorem serve_servedSitesOfAll (bindings : List Binding) (p : Precompiler σ) :
    ∀ (ts : List Tree) (later : List Site) (s : σ), Tree.areWellFormed ts = true →
      serve p (servedSitesOfAll bindings false ts ++ later) s =
        serve p (outermostSitesOfAll bindings ts ++ later) s
  | [], later, s, _ => rfl
  | t :: ts, later, s, hwell => by
    rw [Tree.areWellFormed, Bool.and_eq_true] at hwell
    rw [servedSitesOfAll, outermostSitesOfAll_cons, Bool.false_and, List.append_assoc,
      List.append_assoc]
    calc serve p (servedSites bindings t ++ (servedSitesOfAll bindings false ts ++ later)) s
      _ = serve p (outermostSites bindings t ++ (servedSitesOfAll bindings false ts ++ later)) s :=
        serve_servedSites bindings p t _ s hwell.1
      _ = serve p (outermostSites bindings t ++ (outermostSitesOfAll bindings ts ++ later)) s :=
        serve_append_congr
          (fun s₁ => serve_servedSitesOfAll bindings p ts later s₁ hwell.2) _ s
end

mutual
theorem servedSites_eq_outermostSites (bindings : List Binding) :
    ∀ t : Tree, t.isWellFormed = true →
      (∀ site ∈ servedSites bindings t, ∃ text, site.template? = .ok text) →
      servedSites bindings t = outermostSites bindings t
  | .node kind span parts, hwell, hread => by
    cases h : siteOf? bindings (.node kind span parts) with
    | some site =>
      rw [servedSites, h] at hread ⊢
      obtain ⟨text, htext⟩ := hread site List.mem_cons_self
      rw [servedSitesOfAll_of_template? hwell h htext, outermostSites_of_site h]
    | none =>
      rw [servedSites, h] at hread ⊢
      rw [outermostSites_of_none h]
      exact servedSitesOfAll_eq_outermostSitesOfAll bindings parts
        (Tree.isWellFormed_node.mp hwell).2 hread

theorem servedSitesOfAll_eq_outermostSitesOfAll (bindings : List Binding) :
    ∀ ts : List Tree, Tree.areWellFormed ts = true →
      (∀ site ∈ servedSitesOfAll bindings false ts, ∃ text, site.template? = .ok text) →
      servedSitesOfAll bindings false ts = outermostSitesOfAll bindings ts
  | [], _, _ => rfl
  | t :: ts, hwell, hread => by
    rw [Tree.areWellFormed, Bool.and_eq_true] at hwell
    rw [servedSitesOfAll, Bool.false_and] at hread ⊢
    rw [outermostSitesOfAll_cons, ← servedSites_eq_outermostSites bindings t hwell.1
        fun site h => hread site (List.mem_append_left _ h),
      ← servedSitesOfAll_eq_outermostSitesOfAll bindings ts hwell.2
        fun site h => hread site (List.mem_append_right _ h)]
    rfl
end

/-! ## The run of a transform -/

theorem module_eq_serve {f : Transform σ} {source : Text} {m rest : Tree}
    {bindings : List Binding} (hm : m.isModule = true)
    (htrack : trackImports f.targets source m = .ok (bindings, rest))
    (hcheck : checkShadowing bindings rest = .ok ()) (s : σ) :
    ((f.module source m).runFrom s).1.map Prod.snd =
        (serve f.precompiler (servedSites bindings rest) s).outcome
          ⟨bindings.length, (servedSites bindings rest).length⟩ ∧
      ((f.module source m).runFrom s).2 =
        (serve f.precompiler (servedSites bindings rest) s).state := by
  have hwell := isWellFormed_rest hm htrack
  have hserve := serve_servedSites bindings f.precompiler rest [] s hwell
  rw [List.append_nil, List.append_nil] at hserve
  obtain ⟨asked, hrun⟩ :=
    serve_eq_runFrom_expandSites f.precompiler (outermostSites bindings rest) s
  rw [runFrom_module htrack, hcheck]
  cases hcalls : (expandSites f.precompiler (outermostSites bindings rest)).runFrom s with
  | mk r s' =>
    rw [hcalls] at hrun
    cases r with
    | error e =>
      rw [hserve, hrun]
      exact ⟨rfl, rfl⟩
    | ok calls =>
      have hnone : (serve f.precompiler (servedSites bindings rest) s).failure = none := by
        rw [hserve, hrun]
      rw [servedSites_eq_outermostSites bindings rest hwell (template?_of_served hnone), hrun,
        ← length_of_runFrom_expandSites hcalls]
      exact ⟨rfl, rfl⟩

/-- **A run is its sites served in a row.** Once the imports are tracked and the names are checked, its
outcome, the state of the precompiler and the templates that it was asked for are those of all sites
in the order of a traversal, inner ones included, except for those in type arguments of a site. Where
no site has type arguments, these are all sites of the module. -/
theorem module_serves_sites {f : Transform σ} {source : Text} {m rest : Tree}
    {bindings : List Binding} (hm : m.isModule = true)
    (htrack : trackImports f.targets source m = .ok (bindings, rest))
    (hcheck : checkShadowing bindings rest = .ok ()) (s : σ) :
    let listed := servedSites bindings rest
    let served := serve f.precompiler listed s
    ((f.module source m).runFrom s).1.map Prod.snd =
        served.outcome ⟨bindings.length, listed.length⟩ ∧
      ((f.module source m).runFrom s).2 = served.state ∧
      ((f.recorded.module source m).runFrom (s, [])).2 = (served.state, served.asked) ∧
      (sitesUntyped bindings rest.nodes = true → listed = sites bindings rest) := by
  obtain ⟨houtcome, hstate⟩ := module_eq_serve hm htrack hcheck s
  have hrecord : ((f.recorded.module source m).runFrom (s, [])).2 =
      (serve f.precompiler.recorded (servedSites bindings rest) (s, [])).state :=
    (module_eq_serve (f := f.recorded) hm htrack hcheck (s, [])).2
  rw [serve_recorded] at hrecord
  exact ⟨houtcome, hstate, hrecord, servedSites_eq_sites⟩

section
open Sample

/-- A module with one use: the precompiler is asked for its template. -/
theorem module_serves_sites_plainUse :
    let m := moduleOf [tagImport, statement plainUse]
    let rest := moduleOf [statement plainUse]
    let listed := servedSites tracked rest
    let served := serve transform.precompiler listed ()
    (m.isModule = true ∧ trackImports transform.targets [] m = .ok (tracked, rest) ∧
      checkShadowing tracked rest = .ok () ∧ sitesUntyped tracked rest.nodes = true) ∧
    ((transform.module [] m).runFrom ()).1.map Prod.snd = served.outcome ⟨1, 1⟩ ∧
      ((transform.module [] m).runFrom ()).2 = served.state ∧
      ((transform.recorded.module [] m).runFrom ((), [])).2 = (served.state, [text "a"]) ∧
      listed = sites tracked rest := by
  obtain ⟨houtcome, hstate, hrecord, hall⟩ :=
    module_serves_sites (m := moduleOf [tagImport, statement plainUse]) (f := transform)
      rfl rfl rfl ()
  exact ⟨⟨rfl, rfl, rfl, rfl⟩, houtcome, hstate, hrecord, hall rfl⟩

/-- Not every site is served: one in the type arguments of another is passed over. -/
theorem site_in_typeArgs_not_served :
    let m := moduleOf [tagImport, statement typedUse]
    let rest := moduleOf [statement typedUse]
    let served := serve transform.precompiler (sites tracked rest) ()
    (m.isModule = true ∧ trackImports transform.targets [] m = .ok (tracked, rest) ∧
      tracked ≠ [] ∧ checkShadowing tracked rest = .ok ()) ∧
    ((transform.module [] m).runFrom ()).1.map Prod.snd ≠
        served.outcome ⟨tracked.length, (sites tracked rest).length⟩ ∧
      ((transform.recorded.module [] m).runFrom ((), [])).2.2 = [text "a"] ∧
      served.asked = [text "a", text "b"] := by
  refine ⟨⟨rfl, rfl, List.cons_ne_nil _ _, rfl⟩, ?_, rfl, rfl⟩
  intro h
  have hrun : ((transform.module [] (moduleOf [tagImport, statement typedUse])).runFrom ()).1.map
      Prod.snd = .ok ⟨1, 1⟩ := rfl
  cases hrun.symm.trans h

end

end InlineTemplates
