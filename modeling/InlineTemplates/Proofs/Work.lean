import InlineTemplates.Transform

/-! # Runs of work that keeps a state

What a run gives and which state it leaves, one equation for each way to build work. -/

namespace InlineTemplates

open Script (fragment?)

variable {σ α β : Type}

/-- The result of work begun in a state, and the state that it leaves. -/
def Work.runFrom (w : Work σ α) (s : σ) : Except TransformError α × σ := w.run.run s

namespace Work

@[simp] theorem runFrom_pure (a : α) (s : σ) : runFrom (pure a) s = (.ok a, s) := rfl

@[simp] theorem runFrom_liftExcept (r : Except TransformError α) (s : σ) :
    runFrom (liftM r : Work σ α) s = (r, s) := rfl

theorem runFrom_bind (w : Work σ α) (next : α → Work σ β) (s : σ) :
    runFrom (w >>= next) s = match runFrom w s with
      | (.ok a, s') => runFrom (next a) s'
      | (.error e, s') => (.error e, s') := by
  simp only [runFrom, ExceptT.run_bind, StateT.run_bind]
  cases h : (ExceptT.run w).run s with
  | mk r s' => cases r <;> rfl

theorem of_runFrom_bind_ok {w : Work σ α} {next : α → Work σ β} {s s'' : σ} {b : β}
    (h : runFrom (w >>= next) s = (.ok b, s'')) :
    ∃ a s', runFrom w s = (.ok a, s') ∧ runFrom (next a) s' = (.ok b, s'') := by
  rw [runFrom_bind] at h
  split at h
  · next a s' hw => exact ⟨a, s', hw, h⟩
  · cases h

end Work

theorem runFrom_precompile (p : Precompiler σ) (template : Text) (span : Span) (s : σ) :
    (precompile p template span).runFrom s =
      ((p template s).1.expression? span, (p template s).2) := rfl

theorem expression?_code (code : Text) (span : Span) :
    (Answer.code code).expression? span =
      match fragment? code with
      | .ok e => .ok e
      | .error e => .error ⟨span, .output code e.kind⟩ := by
  unfold Answer.expression?
  split
  · next heq =>
    cases heq
    cases fragment? code with
    | ok t => rfl
    | error e => rfl
  · next heq => cases heq
  · next heq => cases heq

theorem runFrom_precompile_code {p : Precompiler σ} {template code : Text} {e : Script.Tree}
    {s s' : σ} (hcode : (p template).run s = (.code code, s')) (h : fragment? code = .ok e)
    (span : Span) : (precompile p template span).runFrom s = (.ok e, s') := by
  have hanswer : p template s = (.code code, s') := hcode
  rw [runFrom_precompile, hanswer, expression?_code, h]

end InlineTemplates
