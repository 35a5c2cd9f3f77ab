import InlineTemplates.Proofs.ParseRuns

/-! # What a text is read as -/

namespace InlineTemplates.Script

variable {α : Type}

namespace Parse

def IsModuleTree (t : Tree) : Prop := ∃ hashbang span items, t = .node (.module hashbang) span items

theorem gives_moduleTree : Gives IsModuleTree moduleTree := by
  unfold moduleTree
  apply Gives.bind
  intro s
  apply Gives.bind
  intro start
  apply Gives.bind
  intro token
  have hrest : ∀ hashbang, Gives IsModuleTree (do
      let items ← itemsUntilEnd (Grammar.ofDepth (Grammar.depthOf s.source)).moduleItem true false
      return .node (.module hashbang) (← spanFrom start) items) := by
    intro hashbang
    apply Gives.bind
    intro items
    apply Gives.bind
    intro span
    exact Gives.pure ⟨hashbang, span, items, rfl⟩
  dsimp only
  split
  · apply Gives.bind
    intro _
    exact hrest _
  · exact hrest none

theorem of_onSource_ok {step : Parse α} {context : Context} {source : Text} {a : α}
    {after : ParseState} (h : onSource step context source = .ok (a, after)) :
    (step.run context).run.run (startOf source) = (.ok a, after) ∧
      after.lexer.record.errors = [] := by
  unfold onSource at h
  cases hrun : (step.run context).run.run (startOf source) with
  | mk r s =>
    rw [hrun] at h
    cases r with
    | error e => cases h
    | ok b =>
      dsimp only at h
      split at h
      · cases h
      · next herrors =>
        cases h
        exact ⟨rfl, herrors⟩

theorem onSource_of_runOn {step : Parse α} {context : Context} {source : Text} {a : α}
    {after : ParseState} (h : runOn step context (startOf source) = (.ok a, after))
    (herrors : after.lexer.record.errors = []) :
    onSource step context source = .ok (a, after) := by
  unfold runOn at h
  unfold onSource
  rw [h]
  dsimp only
  rw [herrors]

end Parse

theorem Program.of_ofSource? {dialect : Dialect} {source : Text} {program : Program}
    (h : Program.ofSource? dialect source = .ok program) :
    program.source = withoutMark source ∧ Parse.IsModuleTree program.tree := by
  unfold Program.ofSource? at h
  dsimp only at h
  cases hrun : Parse.onSource Parse.moduleTree
      { dialect := dialect, moduleCode := true, strict := true } (withoutMark source) with
  | error e =>
    rw [hrun] at h
    cases h
  | ok read =>
    rw [hrun] at h
    cases h
    obtain ⟨tree, after⟩ := read
    obtain ⟨hstep, -⟩ := Parse.of_onSource_ok hrun
    exact ⟨rfl, Parse.gives_moduleTree _ _ _ _ hstep⟩

/-! ## Code fragments -/

def inParens (code : Text) : Text := text "(" ++ code ++ text "\n)"

theorem fragment?_eq_ok_iff {code : Text} {e : Tree} :
    fragment? code = .ok e ↔ ∃ span inner after,
      Parse.onSource Parse.expression { dialect := .plain } (inParens code) =
        .ok (.node (.expr .paren) span [inner], after) ∧
      span.hi = (inParens code).length + 1 ∧
      e = (if inner.kind = .expr .sequence then .node (.expr .paren) span [inner]
        else inner).eraseSpans := by
  unfold fragment?
  dsimp only
  rw [← inParens]
  cases hread : Parse.onSource Parse.expression { dialect := .plain } (inParens code) with
  | error error =>
    constructor
    · intro h
      cases h
    · rintro ⟨_, _, _, h, -⟩
      cases h
  | ok read =>
    obtain ⟨tree, after⟩ := read
    dsimp only [bind, Except.bind]
    constructor
    · intro h
      split at h
      · next span inner =>
        split at h
        · cases h
        · next hend =>
          cases h
          refine ⟨span, inner, after, rfl, by simpa using hend, ?_⟩
          simp only [beq_iff_eq]
      · cases h
    · rintro ⟨span, inner, _, h, hend, rfl⟩
      cases h
      simp only [hend, bne_self_eq_false, Bool.false_eq_true, if_false, beq_iff_eq]
      rfl

end InlineTemplates.Script
