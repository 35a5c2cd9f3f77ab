import InlineTemplates.Proofs.Imports
import InlineTemplates.Proofs.ModuleRun
import InlineTemplates.Proofs.Sample

/-! # A transform touches its imports and its sites and nothing else -/

namespace InlineTemplates

open Script (Tree Kind)

variable {σ : Type}

/-- The calls that sites become, asked for one after the other: each holds the expression that the
precompiler gave for the template of its site, and has the span of that site. -/
inductive Expansions (p : Precompiler σ) : σ → List Site → List Tree → σ → Prop where
  | nil {s : σ} : Expansions p s [] [] s
  | cons {s s₁ s₂ : σ} {site : Site} {template : Text} {expression : Tree} {later : List Site}
      {calls : List Tree} (read : site.template? = .ok template)
      (given : (precompile p template site.span).runFrom s = (.ok expression, s₁))
      (others : Expansions p s₁ later calls s₂) :
      Expansions p s (site :: later) (templateCall expression site.span :: calls) s₂

theorem of_runFrom_siteExpand_ok {p : Precompiler σ} {site : Site} {call : Tree} {s s' : σ}
    (h : (site.expand p).runFrom s = (.ok call, s')) :
    ∃ template expression, site.template? = .ok template ∧
      (precompile p template site.span).runFrom s = (.ok expression, s') ∧
      call = templateCall expression site.span := by
  rw [Site.expand] at h
  obtain ⟨template, s₁, hread, hrest⟩ := Work.of_runFrom_bind_ok h
  obtain ⟨expression, s₂, hgiven, hcall⟩ := Work.of_runFrom_bind_ok hrest
  rw [Work.runFrom_liftExcept, Prod.mk.injEq] at hread
  obtain ⟨hread, rfl⟩ := hread
  cases hcall
  exact ⟨template, expression, hread, hgiven, rfl⟩

theorem runFrom_siteExpand_ok {p : Precompiler σ} {site : Site} {template : Text} {expression : Tree}
    {s s' : σ} (hread : site.template? = .ok template)
    (hgiven : (precompile p template site.span).runFrom s = (.ok expression, s')) :
    (site.expand p).runFrom s = (.ok (templateCall expression site.span), s') := by
  rw [Site.expand, hread, Work.runFrom_bind, Work.runFrom_liftExcept]
  dsimp only
  rw [Work.runFrom_bind, hgiven]
  rfl

theorem expansions_of_runFrom {p : Precompiler σ} :
    ∀ {sites : List Site} {calls : List Tree} {s s' : σ},
      (expandSites p sites).runFrom s = (.ok calls, s') → Expansions p s sites calls s'
  | [], calls, s, s', h => by
    cases h
    exact .nil
  | site :: later, calls, s, s', h => by
    rw [expandSites_cons] at h
    obtain ⟨call, s₁, hcall, hrest⟩ := Work.of_runFrom_bind_ok h
    obtain ⟨others, s₂, hothers, hcalls⟩ := Work.of_runFrom_bind_ok hrest
    cases hcalls
    obtain ⟨template, expression, hread, hgiven, rfl⟩ := of_runFrom_siteExpand_ok hcall
    exact .cons hread hgiven (expansions_of_runFrom hothers)

theorem template?_of_expansions {p : Precompiler σ} {s s' : σ} {sites : List Site}
    {calls : List Tree} (h : Expansions p s sites calls s') :
    ∀ site ∈ sites, ∃ template, site.template? = .ok template := by
  induction h with
  | nil => exact fun _ hsite => absurd hsite List.not_mem_nil
  | cons read _ _ ih => exact List.forall_mem_cons.mpr ⟨⟨_, read⟩, ih⟩

theorem span_of_expansions {p : Precompiler σ} {s s' : σ} {sites : List Site} {calls : List Tree}
    (h : Expansions p s sites calls s') : calls.map Tree.span = sites.map Site.span := by
  induction h with
  | nil => rfl
  | cons _ _ _ ih =>
    rw [List.map_cons, List.map_cons, ih]
    rfl

def AreTemplateCalls (calls : List Tree) : Prop :=
  ∀ call ∈ calls, ∃ expression span, call = templateCall expression span

theorem areTemplateCalls_of_expansions {p : Precompiler σ} {s s' : σ} {sites : List Site}
    {calls : List Tree} (h : Expansions p s sites calls s') : AreTemplateCalls calls := by
  induction h with
  | nil => exact fun _ hcall => absurd hcall List.not_mem_nil
  | @cons _ _ _ site _ expression _ _ _ _ _ ih =>
    exact List.forall_mem_cons.mpr ⟨⟨expression, site.span, rfl⟩, ih⟩

/-! ## The module after a run -/

/-- **A transform that succeeds touches its imports and its sites and nothing else.** The imports of
targets are gone. What is left of the module is a frame with its outermost sites in the holes, and the
result is the same frame with the calls in them, each with the span of the site that was there. -/
theorem frame_untouched {f : Transform σ} {source : Text} {m result : Tree} {done : Summary}
    {s s' : σ} (h : (f.module source m).runFrom s = (.ok (result, done), s')) :
    ∃ bindings rest calls,
      trackImports f.targets source m = .ok (bindings, rest) ∧
      rest = .node m.kind m.span (m.parts.filter fun item => !importsFrom f.targets item) ∧
      Expansions f.precompiler s (outermostSites bindings rest) calls s' ∧
      calls.map Tree.span = (outermost bindings rest).map Tree.span ∧
      (frameOf bindings rest).holes = calls.length ∧
      (frameOf bindings rest).fill (outermost bindings rest) = rest ∧
      (frameOf bindings rest).fill calls = result := by
  obtain ⟨bindings, rest, calls, htrack, -, hcalls, hresult, -⟩ := of_runFrom_module_ok h
  have hlen : (frameOf bindings rest).holes = calls.length := by
    rw [holes_frameOf, ← length_outermostSites, length_of_runFrom_expandSites hcalls]
  have hexpansions := expansions_of_runFrom hcalls
  have hspans := (span_of_expansions hexpansions).trans (span_of_outermostSites bindings rest)
  exact ⟨bindings, rest, calls, htrack, rest_of_trackImports htrack, hexpansions, hspans, hlen,
    fill_outermost bindings rest, hresult.symm⟩

section
open Sample

/-- `new hbs('b')`: a mention of the tag that is no use of it. -/
def Sample.newTag : Tree :=
  .expr (.new true) .nowhere [word tag, .list [literal (text "b")], .absent]

/-- The import goes, the use becomes a call with its span, and the other mention stays. -/
theorem frame_untouched_newTag :
    let m := moduleOf [tagImport, statement plainUse, statement newTag]
    let result := moduleOf [statement (templateCall (literal (text "a")) plainUse.span),
      statement newTag]
    (transform.module [] m).runFrom () = (.ok (result, ⟨1, 1⟩), ()) ∧
    ∃ bindings rest calls,
      trackImports transform.targets [] m = .ok (bindings, rest) ∧
      rest = .node m.kind m.span (m.parts.filter fun item => !importsFrom transform.targets item) ∧
      Expansions transform.precompiler () (outermostSites bindings rest) calls () ∧
      calls.map Tree.span = (outermost bindings rest).map Tree.span ∧
      (frameOf bindings rest).holes = calls.length ∧
      (frameOf bindings rest).fill (outermost bindings rest) = rest ∧
      (frameOf bindings rest).fill calls = result :=
  ⟨rfl, frame_untouched rfl⟩

end

end InlineTemplates
