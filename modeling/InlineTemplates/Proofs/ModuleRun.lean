import InlineTemplates.Compile
import InlineTemplates.Proofs.Frame

/-! # The run of a transform

Imports first, then the check of names, then the outermost sites in their order. Without bindings the
last two steps find nothing to do. -/

namespace InlineTemplates

open Script (Tree Kind Program)

variable {σ : Type}

/-! ## Without bindings -/

@[simp] theorem siteOf?_nil (t : Tree) : siteOf? [] t = none := by
  unfold siteOf?
  split
  · next tag _ _ => cases plainName? tag <;> rfl
  · next callee _ _ => cases plainName? callee <;> rfl
  · rfl

@[simp] theorem checkShadowing_nil (t : Tree) : checkShadowing [] t = .ok () := by
  have h : (declarations t).findSome? (shadowing? []) = none :=
    List.findSome?_eq_none_iff.mpr fun o _ => rfl
  rw [checkShadowing, h]

mutual
theorem outermost_nil : ∀ t : Tree, outermost [] t = []
  | .node kind span parts => by
    rw [outermost, siteOf?_nil]
    exact outermostOfAll_nil parts

theorem outermostOfAll_nil : ∀ ts : List Tree, outermostOfAll [] ts = []
  | [] => rfl
  | t :: ts => by rw [outermostOfAll, outermost_nil t, outermostOfAll_nil ts]; rfl
end

theorem outermostSites_nil (t : Tree) : outermostSites [] t = [] := by
  rw [outermostSites, outermost_nil]
  rfl

theorem fill_frameOf_nil (t : Tree) : (frameOf [] t).fill [] = t := by
  have h := fill_outermost [] t
  rwa [outermost_nil] at h

/-! ## The steps -/

theorem runFrom_module_of_import_error {f : Transform σ} {source : Text} {m : Tree}
    {e : TransformError} (h : trackImports f.targets source m = .error e) (s : σ) :
    (f.module source m).runFrom s = (.error e, s) := by
  rw [Transform.module, h]
  rfl

theorem runFrom_module {f : Transform σ} {source : Text} {m rest : Tree} {bindings : List Binding}
    (h : trackImports f.targets source m = .ok (bindings, rest)) (s : σ) :
    (f.module source m).runFrom s =
      match checkShadowing bindings rest with
      | .error e => (.error e, s)
      | .ok () =>
        match (expandSites f.precompiler (outermostSites bindings rest)).runFrom s with
        | (.error e, s') => (.error e, s')
        | (.ok calls, s') =>
          (.ok ((frameOf bindings rest).fill calls, ⟨bindings.length, calls.length⟩), s') := by
  rw [Transform.module, h]
  cases bindings with
  | nil =>
    rw [checkShadowing_nil, outermostSites_nil]
    have hfill := fill_frameOf_nil rest
    change (Except.ok (rest, (⟨0, 0⟩ : Summary)), s) =
      (Except.ok ((frameOf [] rest).fill [], (⟨0, 0⟩ : Summary)), s)
    rw [hfill]
  | cons b bs =>
    simp only [Work.runFrom_bind, Work.runFrom_liftExcept, List.isEmpty_cons, Bool.false_eq_true,
      if_false]
    cases hcheck : checkShadowing (b :: bs) rest with
    | error e => rfl
    | ok u =>
      simp only [runFrom_expand]
      cases hrun : (expandSites f.precompiler (outermostSites (b :: bs) rest)).runFrom s with
      | mk r s' => cases r <;> rfl

theorem runFrom_module_ok {f : Transform σ} {source : Text} {m rest : Tree}
    {bindings : List Binding} {calls : List Tree} {s s' : σ}
    (htrack : trackImports f.targets source m = .ok (bindings, rest))
    (hcheck : checkShadowing bindings rest = .ok ())
    (hrun : (expandSites f.precompiler (outermostSites bindings rest)).runFrom s = (.ok calls, s')) :
    (f.module source m).runFrom s =
      (.ok ((frameOf bindings rest).fill calls, ⟨bindings.length, calls.length⟩), s') := by
  rw [runFrom_module htrack, hcheck]
  simp only [hrun]

/-- A run that succeeds took the imports, passed the check and expanded the outermost sites. -/
theorem of_runFrom_module_ok {f : Transform σ} {source : Text} {m result : Tree} {done : Summary}
    {s s' : σ} (h : (f.module source m).runFrom s = (.ok (result, done), s')) :
    ∃ bindings rest calls, trackImports f.targets source m = .ok (bindings, rest) ∧
      checkShadowing bindings rest = .ok () ∧
      (expandSites f.precompiler (outermostSites bindings rest)).runFrom s = (.ok calls, s') ∧
      result = (frameOf bindings rest).fill calls ∧ done = ⟨bindings.length, calls.length⟩ := by
  cases htrack : trackImports f.targets source m with
  | error e =>
    rw [runFrom_module_of_import_error htrack] at h
    cases h
  | ok found =>
    obtain ⟨bindings, rest⟩ := found
    rw [runFrom_module htrack] at h
    split at h
    · cases h
    · next hcheck =>
      split at h
      · cases h
      · next calls s₁ hrun =>
        cases h
        exact ⟨bindings, rest, calls, rfl, hcheck, hrun, rfl, rfl⟩

theorem checkShadowing_of_runFrom_module_ok {f : Transform σ} {source : Text} {m rest result : Tree}
    {bindings : List Binding} {done : Summary} {s s' : σ}
    (htrack : trackImports f.targets source m = .ok (bindings, rest))
    (h : (f.module source m).runFrom s = (.ok (result, done), s')) :
    checkShadowing bindings rest = .ok () := by
  obtain ⟨_, _, _, htrack', hcheck, -⟩ := of_runFrom_module_ok h
  cases htrack.symm.trans htrack'
  exact hcheck

/-! ## A file -/

theorem run_file {f : Transform σ} {fileName source : Text} {program : Program}
    (hread : Program.ofSource? (.ofFileName fileName) source = .ok program) (s : σ) :
    (f.file fileName source).run.run s =
      match (f.module program.source program.tree).runFrom s with
      | (.error e, s') =>
        (.error (.atSpan (.transform e.kind) fileName program.source e.span), s')
      | (.ok (tree, summary), s') =>
        (.ok (if summary.isNoop then source else { program with tree := tree }.render), s') := by
  unfold Transform.file
  rw [hread]
  simp only [Work.runFrom, ExceptT.run_bind, StateT.run_bind]
  have hlift : (liftM (f.module program.source program.tree).run :
        ExceptT CompileError (StateM σ) _).run.run s =
      (.ok ((f.module program.source program.tree).run.run s).1,
        ((f.module program.source program.tree).run.run s).2) := rfl
  rw [hlift]
  cases (f.module program.source program.tree).run.run s with
  | mk r s' =>
    cases r with
    | error e => rfl
    | ok changed =>
      obtain ⟨tree, summary⟩ := changed
      change (if summary.isNoop then return source
        else return { program with tree := tree }.render :
          ExceptT CompileError (StateM σ) Text).run.run s' = _
      dsimp only
      cases summary.isNoop <;> rfl

end InlineTemplates
