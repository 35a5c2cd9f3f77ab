import InlineTemplates.Proofs.CommentsKept
import InlineTemplates.Proofs.Faces
import InlineTemplates.Proofs.WholeCode

/-! # A module keeps to its own positions

Code of a precompiler has positions of its own, which mean nothing in the module. They are taken off
every node of the expression that is read from it, and nothing else of it changes. So what a run
leaves has no positions but those that the module had. -/

namespace InlineTemplates

open Script (Tree Kind FillsParens fragment?_eq_ok_iff_fillsParens)

variable {σ : Type} {bindings : List Binding}

/-! ## Trees without spans -/

/-- The trees are the same up to the spans of their nodes. -/
inductive SameUpToSpans : Tree → Tree → Prop where
  | node {kind span span' ts us} (h : List.Forall₂ SameUpToSpans ts us) :
      SameUpToSpans (.node kind span ts) (.node kind span' us)

theorem sameUpToSpans_eraseSpans (t : Tree) : SameUpToSpans t t.eraseSpans := by
  induction t using Tree.induct with
  | node kind span parts ih =>
    rw [Tree.eraseSpans, Tree.eraseSpansAll_eq_map]
    exact .node (List.forall₂_map_right_iff.mpr (List.forall₂_same.mpr ih))

theorem eraseSpans_eq_self_iff {t : Tree} :
    t.eraseSpans = t ↔ ∀ u ∈ t.nodes, u.span = .nowhere := by
  constructor
  · intro h
    rw [← h]
    exact t.span_of_mem_nodes_eraseSpans
  · intro h
    induction t using Tree.induct with
    | node kind span parts ih =>
      have hspan : span = .nowhere := h _ (Tree.self_mem_nodes _)
      have hparts : parts.map Tree.eraseSpans = parts.map id :=
        List.map_congr_left fun p hp =>
          ih p hp fun u hu => h u (Tree.mem_nodes_node.mpr (.inr ⟨p, hp, hu⟩))
      rw [Tree.eraseSpans, Tree.eraseSpansAll_eq_map, hparts, List.map_id, hspan]

/-! ## The nodes of a filled frame -/

mutual
theorem mem_nodes_fill {u : Tree} : ∀ (t : Tree) {calls : List Tree},
    calls.length = (frameOf bindings t).holes → u ∈ ((frameOf bindings t).fill calls).nodes →
    (∃ v ∈ t.nodes, u.kind = v.kind ∧ u.span = v.span) ∨ ∃ call ∈ calls, u ∈ call.nodes
  | .node kind span parts, calls, hlen, hu => by
    cases h : siteOf? bindings (.node kind span parts) with
    | some site =>
      rw [frameOf, h] at hlen hu
      obtain ⟨call, rfl⟩ := List.length_eq_one_iff.mp hlen
      exact .inr ⟨call, List.mem_cons_self, hu⟩
    | none =>
      rw [frameOf, h] at hlen
      rw [fill_of_none h] at hu
      rcases Tree.mem_nodes_node.mp hu with rfl | ⟨p, hp, hu⟩
      · exact .inl ⟨_, Tree.self_mem_nodes _, rfl, rfl⟩
      · rcases mem_nodes_fillAll parts hlen hp hu with ⟨q, hq, v, hv, hsame⟩ | hcall
        · exact .inl ⟨v, Tree.mem_nodes_node.mpr (.inr ⟨q, hq, hv⟩), hsame⟩
        · exact .inr hcall

theorem mem_nodes_fillAll {u p : Tree} : ∀ (ts : List Tree) {calls : List Tree},
    calls.length = Frame.holesOfAll (frameOfAll bindings ts) →
    p ∈ Frame.fillAll (frameOfAll bindings ts) calls → u ∈ p.nodes →
    (∃ t ∈ ts, ∃ v ∈ t.nodes, u.kind = v.kind ∧ u.span = v.span) ∨ ∃ call ∈ calls, u ∈ call.nodes
  | [], _, _, hp, _ => absurd hp List.not_mem_nil
  | t :: ts, calls, hlen, hp, hu => by
    obtain ⟨hfirst, hothers⟩ := length_take_drop hlen
    rw [fillAll_cons, List.mem_cons] at hp
    rcases hp with rfl | hp
    · rcases mem_nodes_fill t hfirst hu with hin | ⟨call, hcall, hu⟩
      · exact .inl ⟨t, List.mem_cons_self, hin⟩
      · exact .inr ⟨call, List.mem_of_mem_take hcall, hu⟩
    · rcases mem_nodes_fillAll ts hothers hp hu with ⟨q, hq, hin⟩ | ⟨call, hcall, hu⟩
      · exact .inl ⟨q, List.mem_cons_of_mem _ hq, hin⟩
      · exact .inr ⟨call, List.mem_of_mem_drop hcall, hu⟩
end

theorem eq_of_mem_nodes_templateCall {e u : Tree} {span : Span}
    (he : ∀ v ∈ e.nodes, v.span = .nowhere) (hu : u ∈ (templateCall e span).nodes)
    (hspan : u.span ≠ .nowhere) : u = templateCall e span := by
  rcases Tree.mem_nodes_node.mp hu with rfl | ⟨part, hpart, hu⟩
  · rfl
  · refine absurd ?_ hspan
    simp only [List.mem_cons, List.not_mem_nil, or_false] at hpart
    rcases hpart with rfl | rfl | rfl
    · exact nodes_templateFunction u hu
    · rcases Tree.mem_nodes_node.mp hu with rfl | ⟨inner, hinner, hu⟩
      · rfl
      · rw [List.mem_singleton] at hinner
        exact he u (hinner ▸ hu)
    · rcases Tree.mem_nodes_node.mp hu with rfl | ⟨inner, hinner, -⟩
      · rfl
      · exact absurd hinner List.not_mem_nil

theorem sameFace_of_rest {targets : List Target} {source : Text} {m rest v : Tree}
    (h : trackImports targets source m = .ok (bindings, rest)) (hv : v ∈ rest.nodes) :
    ∃ w ∈ m.nodes, v.kind = w.kind ∧ v.span = w.span := by
  obtain ⟨kind, span, items⟩ := m
  rw [rest_of_trackImports h] at hv
  rcases Tree.mem_nodes_node.mp hv with rfl | ⟨item, hitem, hv⟩
  · exact ⟨_, Tree.self_mem_nodes _, rfl, rfl⟩
  · exact ⟨v, Tree.mem_nodes_node.mpr (.inr ⟨item, List.mem_of_mem_filter hitem, hv⟩), rfl, rfl⟩

/-! ## What a precompiler answers, and what a run leaves -/

theorem of_precompile_code {p : Precompiler σ} {template code : Text} {span : Span} {s s₁ s' : σ}
    {e : Tree} (hcode : (p template).run s = (.code code, s₁))
    (h : (precompile p template span).runFrom s = (.ok e, s')) :
    (∀ u ∈ e.nodes, u.span = .nowhere) ∧ ∃ inner, FillsParens code inner ∧
      SameUpToSpans
        (if inner.kind = .expr .sequence then .expr .paren .nowhere [inner] else inner) e := by
  have hanswer : p template s = (.code code, s₁) := hcode
  rw [runFrom_precompile, hanswer, expression?_code] at h
  cases hfragment : Script.fragment? code with
  | error d =>
    rw [hfragment] at h
    cases h
  | ok read =>
    rw [hfragment] at h
    obtain rfl : read = e := Except.ok.inj (Prod.mk.inj h).1
    obtain ⟨inner, hfills, rfl⟩ := fragment?_eq_ok_iff_fillsParens.mp hfragment
    exact ⟨Tree.span_of_mem_nodes_eraseSpans _, inner, hfills, sameUpToSpans_eraseSpans _⟩

/-- **No position of a precompiler's output gets into the module.** The expression that is read from
code has no span at any of its nodes, and is otherwise the one that was read. So if the expressions
that a precompiler builds itself have none either, then after a run each node with a span has the
span of a node that the module had, of the same kind or of a use that a call stands for now. -/
theorem spans_stay_own :
    (∀ {p : Precompiler σ} {template code : Text} {span : Span} {s s₁ s' : σ} {e : Tree},
      (p template).run s = (.code code, s₁) →
      (precompile p template span).runFrom s = (.ok e, s') →
      (∀ u ∈ e.nodes, u.span = .nowhere) ∧ ∃ inner, FillsParens code inner ∧
        SameUpToSpans
          (if inner.kind = .expr .sequence then .expr .paren .nowhere [inner] else inner) e) ∧
    ∀ {f : Transform σ} {source : Text} {m result : Tree} {done : Summary} {s s' : σ},
      (∀ template s t s', (f.precompiler template).run s = (.expression t, s') →
        ∀ u ∈ t.nodes, u.span = .nowhere) →
      (f.module source m).runFrom s = (.ok (result, done), s') →
      ∀ u ∈ result.nodes, u.span ≠ .nowhere → ∃ v ∈ m.nodes, SameFace u v := by
  refine ⟨of_precompile_code, fun {f _ _ _ _ _ _} hanswers h u hu hspan => ?_⟩
  obtain ⟨bindings, rest, calls, htrack, -, hrun, rfl, -⟩ := of_runFrom_module_ok h
  have hexpansions := expansions_of_runFrom hrun
  have hlen : calls.length = (frameOf bindings rest).holes := by
    rw [holes_frameOf, ← length_outermostSites, length_of_runFrom_expandSites hrun]
  rcases mem_nodes_fill rest hlen hu with ⟨v, hv, hkind, hsame⟩ | ⟨call, hcall, hu⟩
  · obtain ⟨w, hw, hkind', hsame'⟩ := sameFace_of_rest htrack hv
    exact ⟨w, hw, .inl (hkind.trans hkind'), hsame.trans hsame'⟩
  · have hwithout : f.precompiler.WithoutSpans := fun template s t s' hrun =>
      eraseSpans_eq_self_iff.mpr (hanswers template s t s' hrun)
    obtain ⟨e, span, rfl, he⟩ := calls_of_expansions hwithout hexpansions call hcall
    obtain rfl := eq_of_mem_nodes_templateCall he hu hspan
    -- The call has the span of the site that it stands for.
    have hspans := (span_of_expansions hexpansions).trans (span_of_outermostSites bindings rest)
    have hmem : (templateCall e span).span ∈ (outermost bindings rest).map Tree.span :=
      hspans ▸ List.mem_map_of_mem hcall
    obtain ⟨v, hv, hsame⟩ := List.mem_map.mp hmem
    obtain ⟨site, hsite⟩ := siteOf?_of_mem_outermost hv
    obtain ⟨w, hw, hkind, hsame'⟩ := sameFace_of_rest htrack (mem_nodes_of_mem_outermost hv)
    have happlied : w.kind.isApplied = true := hkind ▸ isApplied_of_siteOf? hsite
    exact ⟨w, hw, .inr ⟨rfl, happlied⟩, hsame.symm.trans hsame'⟩

section
open Sample

/-- The call that stands for the use has the span of the use, and what was read from code has none. -/
theorem spans_stay_own_answeredCall :
    let f := answering (text "f(a)")
    let e := callOf (text "f") [word (text "a")] .absent .nowhere
    let m := moduleOf [tagImport, statement plainUse]
    let result := moduleOf [statement (templateCall e plainUse.span)]
    (f.precompiler (text "a")).run () = (.code (text "f(a)"), ()) ∧
    (precompile f.precompiler (text "a") plainUse.span).runFrom () = (.ok e, ()) ∧
    ((∀ u ∈ e.nodes, u.span = .nowhere) ∧ ∃ inner, FillsParens (text "f(a)") inner ∧
      SameUpToSpans
        (if inner.kind = .expr .sequence then .expr .paren .nowhere [inner] else inner) e) ∧
    (f.module [] m).runFrom () = (.ok (result, ⟨1, 1⟩), ()) ∧
    templateCall e plainUse.span ∈ result.nodes ∧
    ∃ v ∈ m.nodes, SameFace (templateCall e plainUse.span) v := by
  intro f e m result
  have hfragment : Script.fragment? (text "f(a)") = .ok e := eq_ok_of_toOption (by decide +kernel)
  have hcode : (f.precompiler (text "a")).run () = (.code (text "f(a)"), ()) := rfl
  have hgiven := runFrom_precompile_code hcode hfragment plainUse.span
  have hrun : (f.module [] m).runFrom () = (.ok (result, ⟨1, 1⟩), ()) := by
    have htrack : trackImports f.targets [] m = .ok (tracked, moduleOf [statement plainUse]) := rfl
    have hsites : outermostSites tracked (moduleOf [statement plainUse]) =
        [⟨⟨Target.standard.source, tag⟩, plainUse.span, .call (plainUse.items 1)⟩] := rfl
    have hread : Site.template?
        ⟨⟨Target.standard.source, tag⟩, plainUse.span, .call (plainUse.items 1)⟩ =
          .ok (text "a") := rfl
    have hcalls : (expandSites f.precompiler
        (outermostSites tracked (moduleOf [statement plainUse]))).runFrom () =
          (.ok [templateCall e plainUse.span], ()) := by
      rw [hsites, expandSites_singleton, Work.runFrom_bind, runFrom_siteExpand_ok hread hgiven]
      rfl
    exact runFrom_module_ok htrack rfl hcalls
  have hmem : templateCall e plainUse.span ∈ result.nodes := by decide
  obtain ⟨hread, hmodule⟩ := spans_stay_own (σ := Unit)
  refine ⟨hcode, hgiven, hread hcode hgiven, hrun, hmem, hmodule ?_ hrun _ hmem (by decide)⟩
  intro template s t s' hanswer
  cases (Prod.mk.inj hanswer).1

end

end InlineTemplates
