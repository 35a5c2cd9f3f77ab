import InlineTemplates.Proofs.Sample
import InlineTemplates.Proofs.Serving
import InlineTemplates.Proofs.Untouched

/-! # A second run finds nothing to do

A run leaves no import of a target and no site, except for those that the precompiler's own
expressions bring along. So the next run has no tag to look for. -/

namespace InlineTemplates

open Script (Tree Kind)

variable {σ : Type} {bindings : List Binding}

/-! ## Nodes that are sites -/

/-- The nodes of a tree that are sites, each before those inside it. -/
def siteNodes (bindings : List Binding) (t : Tree) : List Tree :=
  t.nodes.filter fun u => (siteOf? bindings u).isSome

def siteNodesOfAll (bindings : List Binding) (ts : List Tree) : List Tree :=
  (Tree.nodesAll ts).filter fun u => (siteOf? bindings u).isSome

theorem siteNodes_of_none {kind : Kind} {span : Span} {parts : List Tree}
    (h : siteOf? bindings (.node kind span parts) = none) :
    siteNodes bindings (.node kind span parts) = siteNodesOfAll bindings parts := by
  rw [siteNodes, Tree.nodes, List.filter_cons_of_neg (by simp [h]), siteNodesOfAll]

theorem siteNodesOfAll_cons (t : Tree) (ts : List Tree) :
    siteNodesOfAll bindings (t :: ts) = siteNodes bindings t ++ siteNodesOfAll bindings ts := by
  rw [siteNodesOfAll, Tree.nodesAll, List.filter_append]
  rfl

/-! ## The calls that a run puts in -/

/-- The expression in a call that stands for a site. -/
def suppliedIn (call : Tree) : Tree := (call.items 1).headD .absent

theorem siteNodes_templateCall (expression : Tree) (span : Span) :
    siteNodes bindings (templateCall expression span) = siteNodes bindings expression := by
  have hcall : siteOf? bindings (templateCall expression span) = none := rfl
  have hfunction : siteNodes bindings templateFunction = [] := rfl
  have habsent : siteNodes bindings .absent = [] := rfl
  have hlist : siteNodes bindings (.list [expression]) = siteNodes bindings expression := by
    rw [Tree.list, siteNodes_of_none rfl, siteNodesOfAll_cons]
    exact List.append_nil _
  rw [templateCall, Tree.expr, siteNodes_of_none hcall, siteNodesOfAll_cons, siteNodesOfAll_cons,
    siteNodesOfAll_cons, hfunction, habsent, hlist]
  exact List.append_nil _

/-! ## What stands around the calls -/

section
variable {kind : Kind} {span : Span} {parts calls : List Tree}

theorem fill_of_none (h : siteOf? bindings (.node kind span parts) = none) :
    (frameOf bindings (.node kind span parts)).fill calls =
      .node kind span (Frame.fillAll (frameOfAll bindings parts) calls) := by
  rw [frameOf, h]
  rfl

theorem fill_of_site {site : Site} (h : siteOf? bindings (.node kind span parts) = some site)
    (hlen : calls.length = (frameOf bindings (.node kind span parts)).holes)
    (hcalls : AreTemplateCalls calls) :
    ∃ expression place, calls = [templateCall expression place] ∧
      (frameOf bindings (.node kind span parts)).fill calls = templateCall expression place := by
  rw [frameOf, h] at hlen ⊢
  obtain ⟨call, rfl⟩ := List.length_eq_one_iff.mp hlen
  obtain ⟨expression, place, rfl⟩ := hcalls call List.mem_cons_self
  exact ⟨expression, place, rfl, rfl⟩

end

/-- Filling keeps the kind of a node, or it puts a call where a tagged template or a call was. -/
theorem sameRoot_fill (t : Tree) {calls : List Tree}
    (hlen : calls.length = (frameOf bindings t).holes) (hcalls : AreTemplateCalls calls) :
    SameRoot ((frameOf bindings t).fill calls) t := by
  cases t with
  | node kind span parts =>
    cases h : siteOf? bindings (.node kind span parts) with
    | none =>
      rw [fill_of_none h]
      exact .inl rfl
    | some site =>
      obtain ⟨expression, place, -, hfill⟩ := fill_of_site h hlen hcalls
      rw [hfill]
      exact .inr ⟨rfl, isApplied_of_siteOf? h⟩

section
variable {t : Tree} {ts calls : List Tree}

theorem fillAll_cons : Frame.fillAll (frameOfAll bindings (t :: ts)) calls =
    (frameOf bindings t).fill (calls.take (frameOf bindings t).holes) ::
      Frame.fillAll (frameOfAll bindings ts) (calls.drop (frameOf bindings t).holes) := rfl

theorem length_take_drop
    (hlen : calls.length = Frame.holesOfAll (frameOfAll bindings (t :: ts))) :
    (calls.take (frameOf bindings t).holes).length = (frameOf bindings t).holes ∧
      (calls.drop (frameOf bindings t).holes).length =
        Frame.holesOfAll (frameOfAll bindings ts) := by
  rw [frameOfAll, Frame.holesOfAll] at hlen
  rw [List.length_take, List.length_drop]
  omega

theorem AreTemplateCalls.take (h : AreTemplateCalls calls) (n : Nat) :
    AreTemplateCalls (calls.take n) :=
  fun call hcall => h call (List.mem_of_mem_take hcall)

theorem AreTemplateCalls.drop (h : AreTemplateCalls calls) (n : Nat) :
    AreTemplateCalls (calls.drop n) :=
  fun call hcall => h call (List.mem_of_mem_drop hcall)

end

theorem length_fillAll (fs : List Frame) (calls : List Tree) :
    (Frame.fillAll fs calls).length = fs.length := by
  induction fs generalizing calls with
  | nil => rfl
  | cons f fs ih => rw [Frame.fillAll, List.length_cons, List.length_cons, ih]

theorem length_frameOfAll (ts : List Tree) : (frameOfAll bindings ts).length = ts.length := by
  induction ts with
  | nil => rfl
  | cons t ts ih => rw [frameOfAll, List.length_cons, List.length_cons, ih]

theorem siteOf?_fill_eq_none {kind : Kind} {span : Span} {parts calls : List Tree}
    (h : siteOf? bindings (.node kind span parts) = none)
    (hlen : calls.length = Frame.holesOfAll (frameOfAll bindings parts))
    (hcalls : AreTemplateCalls calls) :
    siteOf? bindings (.node kind span (Frame.fillAll (frameOfAll bindings parts) calls)) =
      none := by
  have hlength : (Frame.fillAll (frameOfAll bindings parts) calls).length = parts.length := by
    rw [length_fillAll, length_frameOfAll]
  have hhead : (Frame.fillAll (frameOfAll bindings parts) calls).head?.bind plainName? =
      parts.head?.bind plainName? := by
    cases parts with
    | nil => rfl
    | cons t ts =>
      rw [fillAll_cons]
      exact (sameRoot_fill t (length_take_drop hlen).1 (hcalls.take _)).plainName?_eq
  rw [← Option.isNone_iff_eq_none] at h ⊢
  rwa [← Option.not_isSome, isSome_siteOf?_congr hlength hhead, Option.not_isSome]

mutual
/-- **The sites of a filled frame are those of the expressions in its calls.** -/
theorem siteNodes_fill : ∀ (t : Tree) {calls : List Tree},
    calls.length = (frameOf bindings t).holes → AreTemplateCalls calls →
    siteNodes bindings ((frameOf bindings t).fill calls) =
      calls.flatMap fun call => siteNodes bindings (suppliedIn call)
  | .node kind span parts, calls, hlen, hcalls => by
    cases h : siteOf? bindings (.node kind span parts) with
    | some site =>
      obtain ⟨expression, place, rfl, hfill⟩ := fill_of_site h hlen hcalls
      rw [hfill, siteNodes_templateCall]
      exact (List.append_nil _).symm
    | none =>
      rw [frameOf, h] at hlen
      rw [fill_of_none h, siteNodes_of_none (siteOf?_fill_eq_none h hlen hcalls)]
      exact siteNodesOfAll_fillAll parts hlen hcalls

theorem siteNodesOfAll_fillAll : ∀ (ts : List Tree) {calls : List Tree},
    calls.length = Frame.holesOfAll (frameOfAll bindings ts) → AreTemplateCalls calls →
    siteNodesOfAll bindings (Frame.fillAll (frameOfAll bindings ts) calls) =
      calls.flatMap fun call => siteNodes bindings (suppliedIn call)
  | [], calls, hlen, _ => by
    obtain rfl : calls = [] := List.length_eq_zero_iff.mp hlen
    rfl
  | t :: ts, calls, hlen, hcalls => by
    obtain ⟨hfirst, hothers⟩ := length_take_drop hlen
    rw [fillAll_cons, siteNodesOfAll_cons, siteNodes_fill t hfirst (hcalls.take _),
      siteNodesOfAll_fillAll ts hothers (hcalls.drop _), ← List.flatMap_append,
      List.take_append_drop]
end

/-! ## Imports -/

theorem importSource?_fill (item : Tree) {calls : List Tree}
    (hlen : calls.length = (frameOf bindings item).holes) (hcalls : AreTemplateCalls calls) :
    importSource? ((frameOf bindings item).fill calls) = importSource? item := by
  cases item with
  | node kind span parts =>
    cases h : siteOf? bindings (.node kind span parts) with
    | some site =>
      obtain ⟨expression, place, -, hfill⟩ := fill_of_site h hlen hcalls
      rw [hfill, importSource?_of_isApplied (isApplied_of_siteOf? h)]
      rfl
    | none =>
      rw [frameOf, h] at hlen
      rw [fill_of_none h]
      apply importSource?_congr
      · rw [length_fillAll, length_frameOfAll]
      · match parts with
        | [] | [_] => rfl
        | first :: second :: others =>
          have hrest := (length_take_drop hlen).2
          exact (sameRoot_fill second (length_take_drop hrest).1
            ((hcalls.drop _).take _)).stringValue?_eq

theorem importTarget?_fillAll {targets : List Target} : ∀ (items : List Tree) {calls : List Tree},
    (∀ item ∈ items, importTarget? targets item = none) →
    calls.length = Frame.holesOfAll (frameOfAll bindings items) → AreTemplateCalls calls →
    ∀ item ∈ Frame.fillAll (frameOfAll bindings items) calls, importTarget? targets item = none
  | [], _, _, _, _ => by simp [frameOfAll, Frame.fillAll]
  | t :: ts, calls, hitems, hlen, hcalls => by
    obtain ⟨hfirst, hothers⟩ := length_take_drop hlen
    obtain ⟨ht, hts⟩ := List.forall_mem_cons.mp hitems
    rw [fillAll_cons, List.forall_mem_cons]
    refine ⟨?_, importTarget?_fillAll ts hts hothers (hcalls.drop _)⟩
    rw [importTarget?, importSource?_fill t hfirst (hcalls.take _)]
    exact ht

theorem importTarget?_rest {targets : List Target} {source : Text} {m rest : Tree}
    (h : trackImports targets source m = .ok (bindings, rest)) :
    ∀ item ∈ rest.parts, importTarget? targets item = none := by
  intro item hitem
  rw [rest_of_trackImports h, Tree.parts_node, List.mem_filter, importsFrom_eq_isSome] at hitem
  simpa using hitem.2

theorem importTarget?_parts_fill {targets : List Target} {t : Tree} {calls : List Tree}
    (hitems : ∀ item ∈ t.parts, importTarget? targets item = none)
    (hlen : calls.length = (frameOf bindings t).holes) (hcalls : AreTemplateCalls calls) :
    ∀ item ∈ ((frameOf bindings t).fill calls).parts, importTarget? targets item = none := by
  cases t with
  | node kind span parts =>
    cases h : siteOf? bindings (.node kind span parts) with
    | some site =>
      obtain ⟨expression, place, -, hfill⟩ := fill_of_site h hlen hcalls
      rw [hfill]
      intro item hitem
      simp only [templateCall, Tree.expr, Tree.parts_node, List.mem_cons, List.not_mem_nil,
        or_false] at hitem
      rcases hitem with rfl | rfl | rfl <;> rfl
    | none =>
      rw [frameOf, h] at hlen
      rw [fill_of_none h]
      exact importTarget?_fillAll parts hitems hlen hcalls

/-! ## The second run -/

theorem bindingsAfter_of_none {targets : List Target} {source : Text} {found : List Binding} :
    ∀ {items : List Tree}, (∀ item ∈ items, importTarget? targets item = none) →
      bindingsAfter targets source found items = .ok found
  | [], _ => rfl
  | item :: rest, h => by
    obtain ⟨hitem, hrest⟩ := List.forall_mem_cons.mp h
    rw [bindingsAfter, hitem]
    exact bindingsAfter_of_none hrest

theorem trackImports_of_none {targets : List Target} {m : Tree}
    (h : ∀ item ∈ m.parts, importTarget? targets item = none) (source : Text) :
    trackImports targets source m = .ok ([], m) := by
  have hitems : otherItems targets m.parts = m.parts :=
    List.filter_eq_self.mpr fun item hitem => by simp [h item hitem]
  rw [trackImports, bindingsAfter_of_none h, hitems]
  cases m
  rfl

theorem runFrom_module_of_none {τ : Type} {f : Transform τ} {m : Tree}
    (h : ∀ item ∈ m.parts, importTarget? f.targets item = none) (source : Text) (s : τ) :
    (f.module source m).runFrom s = (.ok (m, ⟨0, 0⟩), s) := by
  rw [runFrom_module (trackImports_of_none h source), checkShadowing_nil, outermostSites_nil]
  change (Except.ok ((frameOf [] m).fill [], (⟨0, 0⟩ : Summary)), s) = _
  rw [fill_frameOf_nil]

/-- **A run leaves nothing to do.** The sites that are in its result are, one for one, those inside
the expressions that the precompiler gave. No import of a target is left. So a run on the result,
with any precompiler, changes nothing and asks for nothing. -/
theorem second_run_is_noop {f : Transform σ} {source : Text} {m result : Tree} {done : Summary}
    {s s' : σ} (h : (f.module source m).runFrom s = (.ok (result, done), s')) :
    ∃ bindings rest calls,
      trackImports f.targets source m = .ok (bindings, rest) ∧
      Expansions f.precompiler s (outermostSites bindings rest) calls s' ∧
      siteNodes bindings result = calls.flatMap (fun call => siteNodes bindings (suppliedIn call)) ∧
      (∀ item ∈ result.parts, importsFrom f.targets item = false) ∧
      ∀ {τ : Type} (q : Precompiler τ) (source' : Text) (s₀ : τ),
        ((Transform.mk q f.targets).module source' result).runFrom s₀ =
            (.ok (result, ⟨0, 0⟩), s₀) ∧
          ((Transform.mk q f.targets).recorded.module source' result).runFrom (s₀, []) =
            (.ok (result, ⟨0, 0⟩), (s₀, [])) := by
  obtain ⟨bindings, rest, calls, htrack, -, hrun, rfl, -⟩ := of_runFrom_module_ok h
  have hexpansions := expansions_of_runFrom hrun
  have hcalls := areTemplateCalls_of_expansions hexpansions
  have hlen : calls.length = (frameOf bindings rest).holes := by
    rw [holes_frameOf, ← length_outermostSites, length_of_runFrom_expandSites hrun]
  have hitems := importTarget?_parts_fill (importTarget?_rest htrack) hlen hcalls
  refine ⟨bindings, rest, calls, htrack, hexpansions, siteNodes_fill rest hlen hcalls, ?_, ?_⟩
  · intro item hitem
    rw [importsFrom_eq_isSome, hitems item hitem]
    rfl
  · intro τ q source' s₀
    exact ⟨runFrom_module_of_none (f := ⟨q, f.targets⟩) hitems source' s₀,
      runFrom_module_of_none (f := ⟨q.recorded, f.targets⟩) hitems source' (s₀, [])⟩

section
open Sample

def Sample.echo : Transform Unit where
  precompiler := fun template =>
    return .expression (callOf tag [literal template] .absent .nowhere)
  targets := [Target.standard]

/-- The answer is a use of the tag itself. It stays, and a second run leaves it alone. -/
theorem second_run_is_noop_echo :
    let m := moduleOf [tagImport, statement plainUse]
    let inner := callOf tag [literal (text "a")] .absent .nowhere
    let result := moduleOf [statement (templateCall inner plainUse.span)]
    (echo.module [] m).runFrom () = (.ok (result, ⟨1, 1⟩), ()) ∧
    siteNodes tracked result = [inner] ∧
    ∃ bindings rest calls,
      trackImports echo.targets [] m = .ok (bindings, rest) ∧
      Expansions echo.precompiler () (outermostSites bindings rest) calls () ∧
      siteNodes bindings result = calls.flatMap (fun call => siteNodes bindings (suppliedIn call)) ∧
      (∀ item ∈ result.parts, importsFrom echo.targets item = false) ∧
      ∀ {τ : Type} (q : Precompiler τ) (source' : Text) (s₀ : τ),
        ((Transform.mk q echo.targets).module source' result).runFrom s₀ =
            (.ok (result, ⟨0, 0⟩), s₀) ∧
          ((Transform.mk q echo.targets).recorded.module source' result).runFrom (s₀, []) =
            (.ok (result, ⟨0, 0⟩), (s₀, [])) :=
  ⟨rfl, rfl, second_run_is_noop rfl⟩

end

end InlineTemplates
