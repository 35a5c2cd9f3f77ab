import InlineTemplates.Script.Program

/-! # Runs of parsing steps

What a step gives and which state it leaves, one equation or inversion for each way to build steps. -/

namespace InlineTemplates.Script.Parse

variable {α β σ ρ : Type} {P : α → Prop} {Q : β → Prop} {c : Context} {s s' : ParseState}

def runOn (step : Parse α) (c : Context) (s : ParseState) : Except SyntaxError α × ParseState :=
  (step.run c).run.run s

@[simp] theorem runOn_pure (a : α) : runOn (pure a) c s = (.ok a, s) := rfl

theorem runOn_bind (step : Parse α) (next : α → Parse β) : runOn (step >>= next) c s =
    match runOn step c s with
    | (.ok a, s₁) => runOn (next a) c s₁
    | (.error e, s₁) => (.error e, s₁) := by
  change (ExceptT.run (step.run c >>= fun a => (next a).run c)).run s = _
  rw [ExceptT.run_bind, StateT.run_bind]
  unfold runOn
  cases (ExceptT.run (step.run c)).run s with
  | mk r s₁ => cases r <;> rfl

theorem of_runOn_bind_ok {step : Parse α} {next : α → Parse β} {b : β}
    (h : runOn (step >>= next) c s = (.ok b, s')) :
    ∃ a s₁, runOn step c s = (.ok a, s₁) ∧ runOn (next a) c s₁ = (.ok b, s') := by
  rw [runOn_bind] at h
  split at h
  · next a s₁ hstep => exact ⟨a, s₁, hstep, h⟩
  · cases h

theorem runOn_bind_of_ok {step : Parse α} {next : α → Parse β} {a : α} {s₁ : ParseState}
    (h : runOn step c s = (.ok a, s₁)) : runOn (step >>= next) c s = runOn (next a) c s₁ := by
  rw [runOn_bind, h]

theorem runOn_then {step : Parse α} {next : α → Parse β} {a : α} {s₁ : ParseState}
    {r : Except SyntaxError β × ParseState} (h : runOn step c s = (.ok a, s₁))
    (hnext : runOn (next a) c s₁ = r) : runOn (step >>= next) c s = r :=
  (runOn_bind_of_ok h).trans hnext

theorem runOn_taken {step other : Parse α} {r : Except SyntaxError α × ParseState}
    (h : runOn step c s = r) : runOn (if true = true then step else other) c s = r := h

theorem runOn_otherwise {step other : Parse α} {r : Except SyntaxError α × ParseState}
    (h : runOn other c s = r) : runOn (if false = true then step else other) c s = r := h

theorem runOn_tryCatch (step : Parse α) (handle : SyntaxError → Parse α) :
    runOn (tryCatch step handle) c s = match runOn step c s with
      | (.ok a, s₁) => (.ok a, s₁)
      | (.error e, s₁) => runOn (handle e) c s₁ := by
  change (ExceptT.run (tryCatch (step.run c) fun e => (handle e).run c)).run s = _
  rw [ExceptT.run_tryCatch, StateT.run_bind]
  unfold runOn
  cases (ExceptT.run (step.run c)).run s with
  | mk r s₁ => cases r <;> rfl

theorem runOn_within (change : Context → Context) (step : Parse α) :
    runOn (within change step) c s = runOn step (change c) s := rfl

@[simp] theorem runOn_get : runOn get c s = (.ok s, s) := rfl

@[simp] theorem runOn_modify (f : ParseState → ParseState) : runOn (modify f) c s = (.ok (), f s) := rfl

@[simp] theorem runOn_context : runOn context c s = (.ok c, s) := rfl

theorem runOn_spanFrom (start : Nat) :
    runOn (spanFrom start) c s = (.ok ⟨start, s.previous.hi⟩, s) := rfl

/-! ## What steps give -/

def Gives (P : α → Prop) (step : Parse α) : Prop :=
  ∀ context s a s', (step.run context).run.run s = (.ok a, s') → P a

theorem gives_iff {step : Parse α} :
    Gives P step ↔ ∀ c s a s', runOn step c s = (.ok a, s') → P a := Iff.rfl

namespace Gives

theorem pure {a : α} (h : P a) : Gives P (pure a) := by
  intro context s b s' hrun
  cases hrun
  exact h

theorem pure_none : Gives (∀ a ∈ ·, P a) (Pure.pure none) := .pure fun _ ha => nomatch ha

theorem pure_some {a : α} (h : P a) : Gives (∀ a ∈ ·, P a) (Pure.pure (some a)) := by
  refine .pure ?_
  rintro b ⟨⟩
  exact h

theorem bind {step : Parse α} {next : α → Parse β} (h : ∀ a, Gives Q (next a)) :
    Gives Q (step >>= next) := by
  rw [gives_iff]
  intro c s b s' hrun
  obtain ⟨a, s₁, -, hrest⟩ := of_runOn_bind_ok hrun
  exact h a c s₁ b s' hrest

theorem mono {R : α → Prop} {step : Parse α} (h : Gives P step) (hR : ∀ a, P a → R a) :
    Gives R step := fun c s a s' hrun => hR a (h c s a s' hrun)

theorem andThen {step : Parse α} {next : α → Parse β} (h : Gives P step)
    (hnext : ∀ a, P a → Gives Q (next a)) : Gives Q (step >>= next) := by
  rw [gives_iff]
  intro c s b s' hrun
  obtain ⟨a, s₁, hstep, hrest⟩ := of_runOn_bind_ok hrun
  exact hnext a (h c s a s₁ hstep) c s₁ b s' hrest

theorem within {change : Context → Context} {step : Parse α} (h : Gives P step) :
    Gives P (Parse.within change step) := fun c s a s' hrun => h (change c) s a s' hrun

theorem throw (e : SyntaxError) : Gives P (throw e : Parse α) := by
  intro c s a s' hrun
  cases hrun

theorem ite {p : Prop} [Decidable p] {step other : Parse α} (h : Gives P step)
    (h' : Gives P other) : Gives P (if p then step else other) := by
  split
  · exact h
  · exact h'

theorem perhaps {p : Prop} [Decidable p] {step : Parse Unit} {next : Unit → Parse β}
    (h : Gives Q (next ())) : Gives Q (if p then step >>= next else next ()) :=
  .ite (.bind fun _ => h) h

theorem failAt (span : Span) (kind : SyntaxErrorKind) : Gives P (Parse.failAt span kind : Parse α) := by
  unfold Parse.failAt
  refine .bind fun broken => ?_
  cases broken with
  | none => exact .throw _
  | some e => exact .bind fun _ => .bind fun _ => .throw _

theorem fail (kind : SyntaxErrorKind) : Gives P (Parse.fail kind : Parse α) :=
  .bind fun _ => .failAt _ _

theorem unexpected (wanted : String) : Gives P (Parse.unexpected wanted : Parse α) :=
  .bind fun _ => .fail _

theorem failAtEnd : Gives P (Parse.failAtEnd : Parse α) := .bind fun _ => .throw _

theorem caught {step : Parse α} {handle : SyntaxError → Parse α} (h : Gives P step)
    (hhandle : ∀ e, Gives P (handle e)) : Gives P (tryCatch step handle) := by
  rw [gives_iff]
  intro c s a s' hrun
  rw [runOn_tryCatch] at hrun
  split at hrun
  · next hstep =>
    cases hrun
    exact h c s a _ hstep
  · next e s₁ _ => exact hhandle e c s₁ a s' hrun

theorem attempt {step : Parse (Option α)} (h : Gives (∀ a ∈ ·, P a) step) :
    Gives (∀ a ∈ ·, P a) (Parse.attempt step) := by
  unfold Parse.attempt
  refine .bind fun before => .andThen (.caught (.within h) fun _ => .pure ?_) fun result hresult => ?_
  · exact fun a ha => absurd ha (Option.not_mem_none a)
  · dsimp only
    split
    · exact .bind fun _ => .pure hresult
    · exact .pure hresult

theorem iterateUpTo {I : σ → Prop} {R : ρ → Prop} {start : σ} {step : σ → Parse (σ ⊕ ρ)}
    (hstep : ∀ x, I x → Gives (Sum.elim I R) (step x)) (n : Nat) (hstart : I start) :
    Gives R (Parse.iterateUpTo step n start) := by
  induction n generalizing start with
  | zero => exact .failAtEnd
  | succ n ih =>
    refine .andThen (hstep start hstart) fun next hnext => ?_
    cases next with
    | inl x => exact ih hnext
    | inr r => exact .pure hnext

theorem iterate {I : σ → Prop} {R : ρ → Prop} {start : σ} {step : σ → Parse (σ ⊕ ρ)}
    (hstart : I start) (hstep : ∀ x, I x → Gives (Sum.elim I R) (step x)) :
    Gives R (Parse.iterate start step) := .bind fun n => .iterateUpTo hstep n hstart

end Gives
end InlineTemplates.Script.Parse
