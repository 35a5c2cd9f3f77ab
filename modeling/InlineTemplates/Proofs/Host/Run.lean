import InlineTemplates.Proofs.Host.Printing
import InlineTemplates.Proofs.Untouched

/-! # The run of a host

The one use of a host becomes a call with the expression that came of the answer, and nothing else
changes. -/

namespace InlineTemplates

open Script (Tree Program fragment?)

variable {σ : Type} {bindings : List Binding}

theorem fill_of_no_site {t : Tree} (h : outermost bindings t = []) :
    (frameOf bindings t).fill [] = t := by
  have hfill := fill_outermost bindings t
  rwa [h] at hfill

theorem fillAll_of_no_site {ts : List Tree} (h : outermostOfAll bindings ts = []) :
    Frame.fillAll (frameOfAll bindings ts) [] = ts := by
  have hfill := fillAll_outermostOfAll bindings ts
  rwa [h] at hfill

namespace Holder

variable {h : Holder} {value : Tree}

theorem outermost_tree : outermost bindings (h.tree value) = outermost bindings value := by
  have hparts : outermost bindings (h.tree value) = outermost bindings value ++ [] ++ [] := rfl
  rw [hparts, List.append_nil, List.append_nil]

theorem fill_tree {us : List Tree} (hlength : us.length = (outermost bindings value).length) :
    (frameOf bindings (h.tree value)).fill us = h.tree ((frameOf bindings value).fill us) := by
  let pattern : Tree := .pat (.name h.name false) h.nameSpan [.absent]
  have hframe : frameOf bindings (h.tree value) = .node (.stmt (.var h.kind false)) h.statement
      [.node (.part (.declarator false)) h.declarator
        [frameOf bindings pattern, frameOf bindings value]] := rfl
  have hpattern : (frameOf bindings pattern).fill [] = pattern := rfl
  have hnone : (frameOf bindings pattern).holes = 0 := rfl
  have htake : us.take (frameOf bindings value).holes = us := by
    rw [holes_frameOf, ← hlength, List.take_length]
  simp only [hframe, Frame.fill, Frame.fillAll, Frame.holes, Frame.holesOfAll, hnone, Nat.zero_add,
    Nat.add_zero, htake, List.take_zero, List.drop_zero, hpattern]
  rfl

end Holder

namespace Host

variable {h : Host} {use call : Tree} {site : Site}

theorem outermost_module (hsite : siteOf? bindings use = some site) :
    outermost bindings (h.module use) =
      outermostOfAll bindings h.before ++ use :: outermostOfAll bindings h.after := by
  have huse : outermost bindings (h.holder.tree use) = [use] := by
    rw [Holder.outermost_tree, outermost_of_site hsite]
  have hmodule : outermost bindings (h.module use) =
      outermostOfAll bindings (h.before ++ h.holder.tree use :: h.after) := rfl
  rw [hmodule, outermostOfAll_eq_flatMap, List.flatMap_append, List.flatMap_cons, huse,
    outermostOfAll_eq_flatMap, outermostOfAll_eq_flatMap]
  rfl

theorem no_site_around (hsite : siteOf? bindings use = some site)
    (honly : outermost bindings (h.module use) = [use]) :
    outermostOfAll bindings h.before = [] ∧ outermostOfAll bindings h.after = [] := by
  rw [outermost_module hsite] at honly
  have hlength := congrArg List.length honly
  simp only [List.length_append, List.length_cons, List.length_nil] at hlength
  exact ⟨List.eq_nil_of_length_eq_zero (by omega), List.eq_nil_of_length_eq_zero (by omega)⟩

theorem fill_module (hsite : siteOf? bindings use = some site)
    (honly : outermost bindings (h.module use) = [use]) :
    (frameOf bindings (h.module use)).fill [call] = h.module call := by
  obtain ⟨hbefore, hafter⟩ := no_site_around hsite honly
  have huse : frameOf bindings use = .hole := by
    cases use with
    | node kind span parts => rw [frameOf, hsite]
  have hvariable : (frameOf bindings (h.holder.tree use)).fill [call] = h.holder.tree call := by
    rw [Holder.fill_tree (by rw [outermost_of_site hsite]; rfl), huse]
    rfl
  have hmodule : frameOf bindings (h.module use) = .node (.module h.hashbang) h.whole
      (frameOfAll bindings h.before ++
        frameOf bindings (h.holder.tree use) :: frameOfAll bindings h.after) := by
    simp only [frameOfAll_eq_map, ← List.map_cons, ← List.map_append]
    rw [← frameOfAll_eq_map]
    rfl
  have hnone : Frame.holesOfAll (frameOfAll bindings h.before) = 0 := by
    rw [holesOfAll_frameOfAll, hbefore]
    rfl
  have hone : (frameOf bindings (h.holder.tree use)).holes = 1 := by
    rw [holes_frameOf, Holder.outermost_tree, outermost_of_site hsite]
    rfl
  rw [hmodule, Frame.fill, Frame.fillAll_append_frames, hnone, List.take_zero, List.drop_zero,
    fillAll_of_no_site hbefore, Frame.fillAll, hone]
  change Script.Tree.node _ _ (h.before ++ (frameOf bindings (h.holder.tree use)).fill [call] ::
    Frame.fillAll (frameOfAll bindings h.after) []) = _
  rw [hvariable, fillAll_of_no_site hafter]
  rfl

theorem run_file {f : Transform σ} {fileName source template : Text} {program : Program}
    {e : Tree} {s s' : σ}
    (hread : Program.ofSource? (.ofFileName fileName) source = .ok program)
    (htrack : trackImports f.targets program.source program.tree = .ok (bindings, h.module use))
    (hnames : checkShadowing bindings (h.module use) = .ok ())
    (honly : outermost bindings (h.module use) = [use])
    (hsite : siteOf? bindings use = some site) (htemplate : site.template? = .ok template)
    (hgiven : (precompile f.precompiler template use.span).runFrom s = (.ok e, s')) :
    (f.file fileName source).run.run s =
      (.ok { program with tree := h.module (templateCall e use.span) }.render, s') := by
  have hspan : site.span = use.span := (span_of_siteOf? hsite).symm
  have hsites : outermostSites bindings (h.module use) = [site] := by
    rw [outermostSites, honly]
    simp [hsite]
  have hcalls : (expandSites f.precompiler (outermostSites bindings (h.module use))).runFrom s =
      (.ok [templateCall e use.span], s') := by
    rw [hsites, expandSites_singleton, Work.runFrom_bind,
      runFrom_siteExpand_ok htemplate (hspan ▸ hgiven), hspan]
    rfl
  have hbound : bindings ≠ [] := by
    rintro rfl
    simp at hsite
  rw [InlineTemplates.run_file hread, runFrom_module_ok htrack hnames hcalls, fill_module hsite honly]
  have hchanged : (Summary.isNoop ⟨bindings.length, [templateCall e use.span].length⟩) = false := by
    simpa [Summary.isNoop] using hbound
  simp only [hchanged]
  rfl

end Host
end InlineTemplates
