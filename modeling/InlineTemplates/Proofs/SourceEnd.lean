import InlineTemplates.Proofs.ParseRuns

/-! # Steps at the end of a source

Where nothing is left to read, each question about the next token is answered no, and the rules for
what may follow an expression leave it as it is. -/

namespace InlineTemplates.Script.Parse

variable {α β σ ρ : Type} {c : Context} {last : Span} {g : Grammar}

/-- Nothing is left to read behind the token taken last, and these errors were noted. -/
structure AtSourceEnd (last : Span) (errors : List SyntaxError) (s : ParseState) : Prop where
  current : s.current = none
  following : s.following = none
  rest : s.lexer.rest = []
  regexFrom : s.lexer.regexFrom = none
  previous : s.previous = last
  errors : s.lexer.record.errors = errors

/-- At the end of a source the step gives this and stays there. -/
def Ends (c : Context) (last : Span) (step : Parse α) (a : α) : Prop :=
  ∀ errors s, AtSourceEnd last errors s →
    ∃ s', runOn step c s = (.ok a, s') ∧ AtSourceEnd last errors s'

namespace Ends

theorem pure (a : α) : Ends c last (pure a) a := fun _ s h => ⟨s, rfl, h⟩

theorem bind {step : Parse α} {next : α → Parse β} {a : α} {b : β} (h : Ends c last step a)
    (hnext : Ends c last (next a) b) : Ends c last (step >>= next) b := by
  intro errors s hs
  obtain ⟨s₁, hstep, hs₁⟩ := h errors s hs
  obtain ⟨s₂, hrest, hs₂⟩ := hnext errors s₁ hs₁
  exact ⟨s₂, (runOn_bind_of_ok hstep).trans hrest, hs₂⟩

theorem context : Ends c last Parse.context c := fun _ s h => ⟨s, rfl, h⟩

theorem taken {step other : Parse α} {a : α} (h : Ends c last step a) :
    Ends c last (if true = true then step else other) a := h

theorem otherwise {step other : Parse α} {a : α} (h : Ends c last other a) :
    Ends c last (if false = true then step else other) a := h

theorem iterate {start : σ} {step : σ → Parse (σ ⊕ ρ)} {r : ρ}
    (h : Ends c last (step start) (.inr r)) : Ends c last (Parse.iterate start step) r := by
  have hupTo (n : Nat) : Ends c last (iterateUpTo step (n + 1) start) r := h.bind (.pure r)
  intro errors s hs
  have hbound : runOn bound c s = (.ok (2 * (s.lexer.stop - s.lexer.origin) + 7 + 1), s) := rfl
  obtain ⟨s₁, hrun, hs₁⟩ := hupTo _ errors s hs
  exact ⟨s₁, (runOn_bind_of_ok hbound).trans hrun, hs₁⟩

end Ends

theorem next_of_rest_nil {l : Lexer} (c : Context) (hrest : l.rest = [])
    (hregex : l.regexFrom = none) : ∃ l', l.next c = (none, l') ∧ l'.rest = [] ∧
      l'.regexFrom = none ∧ l'.record.errors = l.record.errors := by
  obtain ⟨rest, position, enclosures, exprAllowed, regexFrom, templateStart, lineBreak,
    lineBreakBeforeLast, atStart, last, lastEnd, tokenStart, pending, placed, record, origin,
    stop⟩ := l
  cases hrest
  cases hregex
  -- What encloses the end decides whether blanks are skipped, of which there are none.
  cases atStart <;> cases enclosures with
    | nil => exact ⟨_, rfl, rfl, rfl, rfl⟩
    | cons e es => cases e <;> exact ⟨_, rfl, rfl, rfl, rfl⟩

theorem ends_placed? : Ends c last placed? none := by
  intro errors s hs
  obtain ⟨l, hnext, hrest, hregex, herrors⟩ := next_of_rest_nil c hs.rest hs.regexFrom
  have hrun : runOn placed? c s = (.ok none, { s with current := none, lexer := l }) := by
    unfold placed?
    rw [runOn_bind_of_ok runOn_get, hs.current]
    dsimp only
    rw [hs.following]
    dsimp only
    rw [runOn_bind_of_ok runOn_context, hnext]
    rfl
  exact ⟨_, hrun, rfl, hs.following, hrest, hregex, hs.previous, herrors.trans hs.errors⟩

theorem ends_token? : Ends c last token? none := ends_placed?.bind (.pure _)

theorem ends_at? (m : Mark) : Ends c last (at? m) false := ends_token?.bind (.pure _)

theorem ends_accept (m : Mark) : Ends c last (accept m) false := (ends_at? m).bind (.pure _)

theorem ends_lineBreak : Ends c last lineBreak true := ends_placed?.bind (.pure _)

theorem ends_typed (hc : c.dialect = .plain) : Ends c last typed false := by
  have htypes : c.dialect.types = false := by rw [hc]; rfl
  exact Ends.context.bind (htypes ▸ .pure _)

theorem ends_here : Ends c last here last.hi := by
  intro errors s hs
  obtain ⟨s₁, hplaced, hs₁⟩ := ends_placed? errors s hs
  have hrun : runOn here c s = (.ok s₁.previous.hi, s₁) := by
    unfold here
    rw [runOn_bind_of_ok hplaced]
    rfl
  exact ⟨s₁, hs₁.previous ▸ hrun, hs₁⟩

theorem ends_spanFrom (start : Nat) : Ends c last (spanFrom start) ⟨start, last.hi⟩ := by
  intro errors s hs
  exact ⟨s, hs.previous ▸ runOn_spanFrom start, hs⟩

/-! ## Rules for what may follow an expression -/

theorem ends_instantiation? (hc : c.dialect = .plain) : Ends c last (instantiation? g) none := by
  have htypes : Ends c last (typed <&&> at? (.op .lt)) false := (ends_typed hc).bind (.pure false)
  have hnone : Ends c last (notM (typed <&&> at? (.op .lt))) true := htypes.bind (.pure true)
  exact hnone.bind (.pure none)

theorem ends_acceptQuestionDot : Ends c last acceptQuestionDot false := by
  have hquestion : Ends c last (at? .question <&&> nextAt .dot) false :=
    (ends_at? _).bind (.pure false)
  exact hquestion.bind (.pure false)

theorem ends_subscript (hc : c.dialect = .plain) {start : Nat} {obj : Tree} {noCall : Bool}
    (hobj : obj.isExpr = true) :
    Ends c last (subscript g start obj noCall false) (obj, false) := by
  unfold subscript
  refine (ends_typed hc).bind (.otherwise ?_)
  refine (ends_instantiation? hc).bind (ends_acceptQuestionDot.bind (ends_here.bind (.taken ?_)))
  refine (ends_at? _).bind (.otherwise ((Ends.pure false).bind (.otherwise ?_)))
  refine (ends_accept _).bind (.otherwise ((ends_at? _).bind (.otherwise ?_)))
  refine (Ends.pure false).bind (.otherwise ((ends_at? _).bind ?_))
  rw [if_neg (by simp)]
  refine (ends_accept _).bind (.otherwise ?_)
  rw [if_pos hobj]
  exact (Ends.pure obj).bind ((ends_at? _).bind (.otherwise (.pure _)))

theorem ends_subscripts (hc : c.dialect = .plain) {obj : Tree} {noCall : Bool}
    (hobj : obj.isExpr = true) : Ends c last (subscripts g obj noCall false) obj :=
  .iterate ((ends_subscript hc hobj).bind (.pure _))

theorem ends_typeOperator? (hc : c.dialect = .plain) {left : Tree} {least : Nat} :
    Ends c last (typeOperator? g left least) none :=
  (ends_typed hc).bind (ends_lineBreak.bind (.taken (.pure none)))

theorem ends_operatorStep (hc : c.dialect = .plain) {left : Tree} {least : Nat} :
    Ends c last (operatorStep g left least) none :=
  (ends_typeOperator? hc).bind (Ends.context.bind (ends_token?.bind (.pure none)))

theorem ends_operatorsRest (hc : c.dialect = .plain) {left : Tree} {least : Nat}
    (hleft : ∀ op, left.kind ≠ .expr (.binary op)) :
    Ends c last (operatorsRest g left least) left := by
  have hunchecked : operatorsRest.checkOperand left = pure () := by
    unfold operatorsRest.checkOperand
    split
    · next op hkind _ => exact absurd hkind (hleft op)
    · rfl
  refine .iterate ((ends_operatorStep hc).bind ?_)
  dsimp only
  rw [hunchecked]
  exact (Ends.pure ()).bind (.pure _)

theorem ends_assignmentRest {start : Nat} {left : Tree} :
    Ends c last (assignmentRest g start left) left :=
  ends_token?.bind (.pure left)

theorem ends_conditionalArrow? {start : Nat} {async : Bool} {parts : List Tree} :
    Ends c last (conditionalArrow? g start async parts) none := by
  unfold conditionalArrow?
  refine Ends.context.bind ((ends_at? _).bind ?_)
  rw [if_pos (by simp)]
  exact .pure none

theorem ends_arrowReturnType? : Ends c last (arrowReturnType? g) none := by
  unfold arrowReturnType?
  refine Ends.context.bind ((ends_at? _).bind ?_)
  rw [if_pos (by simp)]
  exact .pure none

theorem ends_forIn {α : Type} {xs : List α} {f : α → PUnit → Parse (ForInStep PUnit)}
    (h : ∀ x ∈ xs, Ends c last (f x ⟨⟩) (.yield ⟨⟩)) : Ends c last (forIn xs PUnit.unit f) ⟨⟩ := by
  induction xs with
  | nil => exact .pure _
  | cons x xs ih =>
    rw [List.forIn_cons]
    exact (h x List.mem_cons_self).bind (ih fun y hy => h y (List.mem_cons_of_mem _ hy))

end InlineTemplates.Script.Parse
