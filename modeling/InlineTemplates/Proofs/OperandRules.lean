import InlineTemplates.Proofs.SourceEnd

/-! # What may follow an operand

The rules for operators, calls and member accesses add something to an operand, or leave it as it is.
What they add makes another node of the operand; so a property that such nodes keep goes through these
rules, however much follows. Where the source ends behind an operand, nothing is added. -/

namespace InlineTemplates.Script

/-- Neither a name, a member, a call, something in parentheses nor several expressions. -/
def Kind.isOrdinary : Kind → Bool
  | .expr (.name _) | .expr .member | .expr .call | .expr .paren | .expr .sequence => false
  | _ => true

def Tree.Ordinary (t : Tree) : Prop := t.kind.isOrdinary = true

/-- A property that lasts when something follows an expression. Ordinary nodes have it; members and
calls have it from what they belong to. -/
structure Tree.Lasting (P : Tree → Prop) : Prop where
  ordinary : ∀ {t : Tree}, t.Ordinary → P t
  member : ∀ {obj prop : Tree} {span : Span}, P obj → P (.expr .member span [obj, prop])
  call : ∀ {obj args typeArgs : Tree} {span : Span}, P obj →
    P (.expr .call span [obj, args, typeArgs])

namespace Parse

open InlineTemplates.Script.Tree (Ordinary Lasting)

variable {g : Grammar} {P : Tree → Prop}

/-! ## Calls and member accesses -/

theorem gives_arrowTail {start : Nat} {async : Bool} {params : List Tree} {typeParams type : Tree} :
    Gives Ordinary (arrowTail g start async params typeParams type) := by
  unfold arrowTail
  exact .bind fun body => .bind fun span => .pure rfl

theorem asImportCallee_lasts (hP : Lasting P) {obj : Tree} (hobj : P obj) :
    P (asImportCallee obj) := by
  unfold asImportCallee
  split
  · split
    · exact hP.ordinary rfl
    · exact hobj
  · exact hobj

theorem gives_callOf (hP : Lasting P) {start : Nat} {obj typeArgs : Tree} {optional : Bool}
    (hobj : P obj) : Gives P (callOf g start obj typeArgs optional) := by
  unfold callOf
  refine .bind fun args => .bind fun span => ?_
  have hcall : P (.expr .call span [asImportCallee obj, .list args, typeArgs]) :=
    hP.call (asImportCallee_lasts hP hobj)
  split
  · split
    · exact .pure (hP.ordinary rfl)
    · exact .bind fun _ => .bind fun _ => .pure hcall
  · exact .pure hcall

theorem gives_taggedTemplate {tag typeArgs : Tree} :
    Gives Ordinary (taggedTemplate g tag typeArgs) := by
  unfold taggedTemplate
  refine .bind fun template => .bind fun span => ?_
  split
  · exact .bind fun _ => .pure rfl
  · exact .pure rfl

theorem gives_instantiated_some {e args : Tree} {start : Nat} :
    Gives Ordinary (instantiated start e (some args)) :=
  .bind fun _ => .pure rfl

theorem gives_instantiated (hP : Lasting P) {e : Tree} (he : P e) {start : Nat}
    {args : Option Tree} : Gives P (instantiated start e args) := by
  cases args with
  | none => exact .pure he
  | some args => exact gives_instantiated_some.mono fun _ h => hP.ordinary h

theorem memberOf_lasts (hP : Lasting P) {span chainSpan : Span} {obj prop : Tree}
    {index optional : Bool} (hobj : P obj) : P (memberOf span chainSpan obj prop index optional) := by
  unfold memberOf
  dsimp only
  split
  · exact hP.ordinary rfl
  · cases index
    · exact hP.member hobj
    · exact hP.ordinary rfl

theorem gives_superMember {span : Span} {obj prop : Tree} {index optional noCall : Bool} :
    Gives Ordinary (superMember span obj prop index optional noCall) := by
  have hmember : Ordinary
      (.expr (if index then .superIndex else .superMember) span [obj, prop]) := by
    cases index <;> rfl
  unfold superMember
  refine .bind fun here => .bind fun context => .bind fun types => ?_
  extract_lets made chosen
  have hmade : Gives Ordinary (made ()) := by
    unfold made
    split
    · exact .failAt _ _
    · exact .pure hmember
  have hchosen : Gives Ordinary (chosen ()) := .ite (.bind fun _ => hmade) hmade
  exact .ite (.bind fun _ => hchosen) hchosen

theorem gives_indexAccess (hP : Lasting P) {start bracket : Nat} {obj : Tree}
    {optional noCall : Bool} (hobj : P obj) :
    Gives P (indexAccess g start bracket obj optional noCall) := by
  unfold indexAccess
  refine .bind fun e => .bind fun _ => .bind fun span => .bind fun bracketSpan => ?_
  refine .bind fun args => ?_
  split
  · exact gives_superMember.mono fun _ h => hP.ordinary h
  · exact gives_instantiated hP (memberOf_lasts hP hobj)

theorem gives_nameAccess (hP : Lasting P) {start : Nat} {obj : Tree} {optional noCall : Bool}
    (hobj : P obj) : Gives P (nameAccess g start obj optional noCall) := by
  unfold nameAccess
  refine .bind fun prop => .bind fun span => .bind fun args => ?_
  split
  · exact gives_superMember.mono fun _ h => hP.ordinary h
  · exact .bind fun _ => gives_instantiated hP (memberOf_lasts hP hobj)

theorem gives_genericAsyncArrow? {start : Nat} :
    Gives (∀ a ∈ ·, Ordinary a) (genericAsyncArrow? g start) := by
  unfold genericAsyncArrow?
  refine .bind fun atLess => .bind fun atTag => ?_
  split
  · exact .pure_none
  · refine .bind fun head => ?_
    cases head with
    | none => exact .pure_none
    | some found => exact .andThen gives_arrowTail fun arrow harrow => .pure_some harrow

theorem gives_typedCall? (hP : Lasting P) {start : Nat} {obj : Tree} {noCall : Bool}
    (hobj : P obj) : Gives (∀ found ∈ ·, P found.1) (typedCall? g start obj noCall) := by
  unfold typedCall?
  refine .bind fun types => .bind fun less => .ite .pure_none (.attempt (.bind fun state => ?_))
  extract_lets typed
  have htyped : Gives (∀ found ∈ ·, P found.1) (typed ()) := by
    refine .bind fun args => .bind fun opens => .ite ?_ (.bind fun quoted => .ite ?_ ?_)
    · exact .andThen (gives_callOf hP hobj) fun call hcall => .pure_some hcall
    · exact .andThen gives_taggedTemplate fun t ht => .pure_some (hP.ordinary ht)
    · refine .bind fun ended => .ite ?_ (.unexpected _)
      exact .andThen gives_instantiated_some fun e he => .pure_some (hP.ordinary he)
  refine .ite (.andThen gives_genericAsyncArrow? fun arrow harrow => ?_) htyped
  cases arrow with
  | none => exact htyped
  | some arrow => exact .pure_some (hP.ordinary (harrow arrow rfl))

theorem gives_subscriptEnd (hP : Lasting P) {obj : Tree} {start : Nat} {args : Option Tree}
    (hobj : P obj) : Gives (fun found => P found.1) (do
      let obj ← instantiated start obj args
      if ← at? .backquote then return (← withoutColon (taggedTemplate g obj .absent), true)
      return (obj, false) : Parse (Tree × Bool)) := by
  refine .andThen (gives_instantiated hP hobj) fun e he => .bind fun quoted => .ite ?_ (.pure he)
  exact .andThen (.within gives_taggedTemplate) fun t ht => .pure (hP.ordinary ht)

theorem gives_subscript (hP : Lasting P) {start : Nat} {obj : Tree} {noCall noIndex : Bool}
    (hobj : P obj) : Gives (fun found => P found.1) (subscript g start obj noCall noIndex) := by
  have hindexed {bracket : Nat} {optional : Bool} : Gives (fun found => P found.1)
      (do return (← indexAccess g start bracket obj optional noCall, true)) :=
    .andThen (gives_indexAccess hP hobj) fun e he => .pure he
  have hcalled {args : Tree} {optional : Bool} : Gives (fun found => P found.1)
      (do return (← callOf g start obj args optional, true)) :=
    .andThen (gives_callOf hP hobj) fun e he => .pure he
  have hnamed {optional : Bool} : Gives (fun found => P found.1)
      (do return (← nameAccess g start obj optional noCall, true)) :=
    .andThen (gives_nameAccess hP hobj) fun e he => .pure he
  unfold subscript
  refine .bind fun types => ?_
  extract_lets failed rest nonNull word
  have hrest : Gives (fun found => P found.1) (rest ()) := by
    refine .bind fun args => .bind fun optional => .bind fun bracket => ?_
    extract_lets callWith chained calls dotted
    have hchained (chainCall : Bool) : Gives (fun found => P found.1) (chained chainCall) := by
      refine .ite (.bind fun _ => ?_) ?_
      all_goals
        refine .bind fun opens => .ite (.bind fun types => .bind fun less => ?_) (.bind fun dot => ?_)
        · exact .ite (.bind fun _ => hcalled) (.bind fun _ => hcalled)
        · refine .ite hnamed (.ite (gives_subscriptEnd hP hobj) ?_)
          exact .ite (.bind fun _ => .fail _) (.fail _)
    have hcalls : Gives (fun found => P found.1) (calls ()) :=
      .bind fun atDot => .ite (.bind fun _ => hchained _) (.bind fun _ => hchained _)
    have hdotted (d : Bool) : Gives (fun found => P found.1) (dotted d) := by
      refine .ite (.bind fun _ => .bind fun _ => .bind fun _ => hindexed) (.bind fun opens => ?_)
      exact .ite hindexed hcalls
    refine .ite (.bind fun atDot => ?_) hcalls
    exact .ite (.bind fun _ => hdotted _) (.bind fun _ => hdotted _)
  have hnonNull : Gives (fun found => P found.1) (nonNull ()) :=
    .bind fun span => .pure (hP.ordinary rfl)
  refine .ite (.bind fun bang => .bind fun broken => .ite (.bind fun _ => .bind fun _ => ?_) ?_) hrest
  · exact .ite (.bind fun _ => .bind fun _ => hnonNull) hnonNull
  · refine .andThen (gives_typedCall? hP hobj) fun found hfound => ?_
    cases found with
    | none => exact hrest
    | some found => exact .pure (hfound found rfl)

theorem gives_subscripts (hP : Lasting P) {obj : Tree} {noCall noIndex : Bool} (hobj : P obj) :
    Gives P (subscripts g obj noCall noIndex) := by
  unfold subscripts
  refine .iterate (I := P) hobj fun e he => ?_
  refine .andThen (gives_subscript hP he) fun ⟨next, more⟩ hnext => .pure ?_
  split
  · exact hnext
  · exact hnext

/-! ## Operators -/

theorem gives_typeOperator? {left : Tree} {least : Nat} :
    Gives (∀ a ∈ ·, Ordinary a) (typeOperator? g left least) := by
  unfold typeOperator?
  refine .bind fun types => .bind fun broken => .ite .pure_none (.bind fun named => .ite ?_ ?_)
  · refine .bind fun const => .ite ?_ ?_
    · exact .bind fun _ => .bind fun _ => .bind fun _ => .bind fun _ => .pure_some rfl
    · exact .bind fun _ => .bind fun _ => .pure_some rfl
  · refine .bind fun named => .ite ?_ .pure_none
    exact .bind fun _ => .bind fun _ => .pure_some rfl

theorem gives_operatorStep {left : Tree} {least : Nat} :
    Gives (∀ a ∈ ·, Ordinary a) (operatorStep g left least) := by
  unfold operatorStep
  refine .andThen gives_typeOperator? fun found hfound => ?_
  split
  · exact .pure hfound
  · refine .bind fun c => .bind fun token => ?_
    split
    · exact .pure_none
    · next op _ =>
      extract_lets joined
      have hjoined : Gives (∀ a ∈ ·, Ordinary a) (joined ()) := by
        refine .bind fun _ => .bind fun first => .bind fun right => .ite ?_ (.pure_some rfl)
        exact .bind fun _ => .bind fun _ => .pure_some rfl
      refine .ite .pure_none (.ite ?_ hjoined)
      split
      · exact .bind fun _ => hjoined
      · exact .bind fun _ => hjoined
      · exact hjoined

theorem gives_operatorsRest (hP : ∀ {t : Tree}, t.Ordinary → P t) {left : Tree} {least : Nat}
    (hleft : P left) : Gives P (operatorsRest g left least) := by
  unfold operatorsRest
  refine .iterate (I := P) hleft fun e he => ?_
  refine .andThen gives_operatorStep fun found hfound => ?_
  split
  · exact .bind fun _ => .pure he
  · next e => exact .bind fun _ => .pure (hP (hfound e rfl))

theorem gives_conditionalRest {start : Nat} {test : Tree} :
    Gives Ordinary (conditionalRest g start test) :=
  .bind fun _ => .bind fun _ => .bind fun _ => .pure rfl

theorem gives_assignmentRest (hP : ∀ {t : Tree}, t.Ordinary → P t) {start : Nat} {left : Tree}
    (hleft : P left) : Gives P (assignmentRest g start left) := by
  unfold assignmentRest
  refine .bind fun token => ?_
  split
  · next op =>
    extract_lets assigned checked
    have hassigned (target : Tree) : Gives P (assigned target) :=
      .bind fun _ => .bind fun _ => .bind fun _ => .pure (hP rfl)
    refine .ite (.bind fun target => hassigned target) (.bind fun c => ?_)
    have hchecked : Gives P (checked ()) := by
      unfold checked
      split
      · exact .bind fun target => hassigned target
      · exact .ite (.bind fun target => hassigned target) (.bind fun target => hassigned target)
    exact .ite (.bind fun _ => hchecked) hchecked
  · exact .pure hleft

/-! ## Arrow functions -/

theorem gives_arrowFromParts (hP : ∀ {t : Tree}, t.Ordinary → P t)
    (hoperators : ∀ e least, P e → Gives P (g.operators e least)) {start : Nat}
    {canBeArrow async : Bool} {parts : List Tree} {comma : Option Span} {type : Tree} :
    Gives P (arrowFromParts g start canBeArrow async parts comma type) := by
  unfold arrowFromParts
  refine .bind fun broken => ?_
  extract_lets rest allowed
  have hrest : Gives P (rest ()) := by
    refine .bind fun _ => .bind fun params => ?_
    refine .andThen gives_arrowTail fun arrow harrow => .bind fun token => ?_
    split
    · refine .bind fun _ => .bind fun _ => .andThen (hoperators arrow 0 (hP harrow)) fun e he => ?_
      exact .bind fun _ => .ite (.bind fun _ => .bind fun _ => .pure he) (.pure he)
    · exact .pure (hP harrow)
  have hallowed : Gives P (allowed ()) := .ite (.bind fun _ => .bind fun _ => hrest) hrest
  exact .ite (.bind fun _ => .bind fun _ => hallowed) hallowed

/-! ## Looking at the current token -/

section
variable {c : Context} {s s₁ s' : ParseState} {t : PlacedToken} {e : Tree}

theorem runOn_placed? (hs : s.current = some t) : runOn placed? c s = (.ok (some t), s) := by
  unfold placed?
  rw [runOn_bind_of_ok runOn_get]
  simp only [hs, runOn_pure]

theorem runOn_placed?_of_next {l : Lexer} (hcurrent : s.current = none)
    (hfollowing : s.following = none) (hnext : s.lexer.next c = (some t, l)) :
    runOn placed? c s = (.ok (some t), { s with current := some t, lexer := l }) := by
  unfold placed?
  rw [runOn_bind_of_ok runOn_get, hcurrent]
  dsimp only
  rw [hfollowing]
  dsimp only
  rw [runOn_bind_of_ok runOn_context, hnext]
  rfl

theorem runOn_token? (hplaced : runOn placed? c s = (.ok (some t), s₁)) :
    runOn token? c s = (.ok (some t.token), s₁) := by
  unfold token?
  rw [runOn_bind_of_ok hplaced]
  rfl

theorem runOn_here (hplaced : runOn placed? c s = (.ok (some t), s₁)) :
    runOn here c s = (.ok t.span.lo, s₁) := by
  unfold here
  rw [runOn_bind_of_ok hplaced]
  rfl

theorem runOn_at? (hplaced : runOn placed? c s = (.ok (some t), s₁)) (m : Mark) :
    runOn (at? m) c s = (.ok (isMark m (some t.token)), s₁) := by
  unfold at?
  rw [runOn_bind_of_ok (runOn_token? hplaced)]
  rfl

theorem runOn_atKeyword (hs : s.current = some t) (k : Keyword) :
    runOn (atKeyword k) c s = (.ok (isKeyword k (some t.token)), s) := by
  unfold atKeyword
  rw [runOn_bind_of_ok (runOn_token? (runOn_placed? hs))]
  rfl

theorem runOn_advance (hs : s.current = some t) :
    runOn advance c s = (.ok (), { s with current := none, previous := t.span }) :=
  runOn_then (runOn_placed? hs) rfl

theorem runOn_accept (hs : s.current = some t) {m : Mark} (ht : t.token = .mark m) :
    runOn (accept m) c s = (.ok true, { s with current := none, previous := t.span }) := by
  have hat : runOn (at? m) c s = (.ok true, s) := by
    rw [runOn_at? (runOn_placed? hs), ht, isMark, beq_self_eq_true]
  exact runOn_then hat (runOn_then (runOn_advance hs) rfl)

theorem runOn_accept_other (hplaced : runOn placed? c s = (.ok (some t), s₁)) {m : Mark}
    (ht : isMark m (some t.token) = false) : runOn (accept m) c s = (.ok false, s₁) := by
  have hat : runOn (at? m) c s = (.ok false, s₁) := by rw [runOn_at? hplaced, ht]
  exact runOn_then hat rfl

theorem runOn_typed : runOn typed c s = (.ok c.dialect.types, s) := rfl

theorem runOn_untyped (hc : c.dialect = .plain) : runOn typed c s = (.ok false, s) := by
  rw [runOn_typed, hc]
  rfl

theorem runOn_instantiation? (hc : c.dialect = .plain) :
    runOn (instantiation? g) c s = (.ok none, s) := by
  have htypes : runOn (typed <&&> at? (.op .lt)) c s = (.ok false, s) :=
    runOn_then (runOn_untyped hc) rfl
  have hnone : runOn (notM (typed <&&> at? (.op .lt))) c s = (.ok true, s) :=
    runOn_then htypes rfl
  exact runOn_then hnone rfl

/-- Whether the token is a name or opens parentheses. -/
def opensOperand : Token → Bool
  | .name _ _ | .mark .parenOpen => true
  | _ => false

theorem of_opensOperand {token : Token} (h : opensOperand token = true) :
    (∃ n plain, token = .name n plain) ∨ token = .mark .parenOpen := by
  cases token with
  | name n plain => exact .inl ⟨n, plain, rfl⟩
  | mark m =>
    cases m with
    | parenOpen => exact .inr rfl
    | _ => cases h
  | _ => cases h

theorem isKeyword_of_opensOperand {token : Token} (h : opensOperand token = true) (k : Keyword) :
    isKeyword k (some token) = false := by
  obtain ⟨n, plain, rfl⟩ | rfl := of_opensOperand h
  · rfl
  · rfl

theorem isMark_of_opensOperand {token : Token} (h : opensOperand token = true) {m : Mark}
    (hm : m ≠ .parenOpen) : isMark m (some token) = false := by
  obtain ⟨n, plain, rfl⟩ | rfl := of_opensOperand h
  · rfl
  · exact beq_eq_false_iff_ne.mpr hm.symm

theorem unaryOp?_of_opensOperand {token : Token} (h : opensOperand token = true) :
    unaryOp? (some token) = none := by
  obtain ⟨n, plain, rfl⟩ | rfl := of_opensOperand h
  · rfl
  · rfl

theorem runOn_acceptKeyword (hs : s.current = some t) (ht : opensOperand t.token = true)
    (k : Keyword) : runOn (acceptKeyword k) c s = (.ok false, s) := by
  unfold acceptKeyword
  rw [runOn_bind_of_ok (runOn_atKeyword hs k), isKeyword_of_opensOperand ht k]
  rfl

theorem runOn_someToken (hs : s.current = some t) (ht : opensOperand t.token = true) :
    runOn someToken c s = (.ok t.token, s) := by
  unfold someToken
  rw [runOn_bind_of_ok (runOn_token? (runOn_placed? hs))]
  obtain ⟨n, plain, htoken⟩ | htoken := of_opensOperand ht
  · rw [htoken]
    rfl
  · rw [htoken]
    rfl

/-! ## From an expression to its first operand -/

/-- The outcomes of two rules, of which the first reads what the second does and what follows it. Of
the first, a tree of this sort is what the second gave; and it is, if the source ends there. -/
structure SameWhere (S : Tree → Prop) (outer inner : Except SyntaxError Tree × ParseState) :
    Prop where
  of_outer : ∀ {e s'}, outer = (.ok e, s') → S e → ∃ s₁, inner = (.ok e, s₁)
  of_inner : ∀ {e last errors s₁}, inner = (.ok e, s₁) → S e → AtSourceEnd last errors s₁ →
    ∃ s', outer = (.ok e, s') ∧ AtSourceEnd last errors s'

variable {S : Tree → Prop}

theorem SameWhere.trans {outer middle inner : Except SyntaxError Tree × ParseState}
    (h : SameWhere S outer middle) (h' : SameWhere S middle inner) : SameWhere S outer inner where
  of_outer houter he := by
    obtain ⟨s₁, hmiddle⟩ := h.of_outer houter he
    exact h'.of_outer hmiddle he
  of_inner hinner he hend := by
    obtain ⟨s₁, hmiddle, hend₁⟩ := h'.of_inner hinner he hend
    exact h.of_inner hmiddle he hend₁

theorem sameWhere_andThen {step : Parse Tree} {tail : Tree → Parse Tree} (hstep : Gives P step)
    (hgives : ∀ e, P e → Gives (fun t => S t → t = e) (tail e))
    (hends : ∀ e last, S e → Ends c last (tail e) e) :
    SameWhere S (runOn (step >>= tail) c s) (runOn step c s) where
  of_outer houter he := by
    obtain ⟨first, s₁, hfirst, hrest⟩ := of_runOn_bind_ok houter
    obtain rfl := hgives first (hstep _ _ _ _ hfirst) c s₁ _ _ hrest he
    exact ⟨s₁, hfirst⟩
  of_inner hinner he hend := by
    obtain ⟨s', hrest, hend'⟩ := hends _ _ he _ _ hend
    exact ⟨s', (runOn_bind_of_ok hinner).trans hrest, hend'⟩

theorem sameWhere_bind {step : Parse Tree} {tail : Tree → Parse Tree}
    (hgives : ∀ e, Gives (fun t => S t → t = e) (tail e))
    (hends : ∀ e last, S e → Ends c last (tail e) e) :
    SameWhere S (runOn (step >>= tail) c s) (runOn step c s) :=
  sameWhere_andThen (P := fun _ => True) (fun _ _ _ _ _ => trivial) (fun e _ => hgives e) hends

theorem sameWhere_tryCatch {step : Parse Tree} {handle : SyntaxError → Parse Tree}
    (h : ∀ e, Gives (fun t => ¬ S t) (handle e)) :
    SameWhere S (runOn (tryCatch step handle) c s) (runOn step c s) where
  of_outer houter he := by
    rw [runOn_tryCatch] at houter
    split at houter
    · next hstep =>
      cases houter
      exact ⟨_, hstep⟩
    · next error s₁ _ => exact absurd he (h error c s₁ _ _ houter)
  of_inner hinner he hend := by
    rw [runOn_tryCatch, hinner]
    exact ⟨_, rfl, hend⟩

/-- Trees of this sort are in parentheses or calls, to which nothing else comes down. -/
def Operands (S : Tree → Prop) : Prop :=
  ∀ {t : Tree}, S t → t.kind = .expr .paren ∨ t.kind = .expr .call

namespace Operands

variable (hS : Operands S)
include hS

theorem not_ordinary {t : Tree} (h : t.Ordinary) : ¬ S t := by
  intro ht
  unfold Ordinary at h
  obtain hkind | hkind := hS ht
  · rw [hkind] at h
    cases h
  · rw [hkind] at h
    cases h

theorem of_ordinary {e t : Tree} (h : t.Ordinary) : S t → t = e :=
  fun ht => absurd ht (hS.not_ordinary h)

end Operands

theorem sameWhere_sequenceExpr (hS : Operands S) :
    SameWhere S (runOn (sequenceExpr g) c s) (runOn g.assignment c s) := by
  unfold sequenceExpr
  refine sameWhere_bind (fun first => ?_) fun e last he => ?_
  · refine .bind fun comma => .ite (.pure fun _ => rfl) (.bind fun _ => .bind fun _ => .pure ?_)
    intro hsequence
    obtain hkind | hkind := hS hsequence
    · cases hkind
    · cases hkind
  · exact (ends_at? _).bind (.taken (.pure _))

theorem sameWhere_unaryExpr (hS : Operands S) (hs : s.current = some t)
    (ht : opensOperand t.token = true) (hc : c.dialect = .plain) :
    SameWhere S (runOn (unaryExpr g) c s) (runOn (leftHandSideExpr g) c s) := by
  unfold unaryExpr
  rw [runOn_bind_of_ok (runOn_here (runOn_placed? hs)), runOn_bind_of_ok runOn_context, hc]
  simp only [Dialect.plain, Bool.false_and, Bool.false_eq_true, if_false]
  rw [runOn_bind_of_ok (runOn_at? (runOn_placed? hs) _),
    runOn_bind_of_ok (runOn_at? (runOn_placed? hs) _),
    isMark_of_opensOperand ht (m := .plusPlus) (by decide),
    isMark_of_opensOperand ht (m := .minusMinus) (by decide), if_neg (by decide),
    runOn_bind_of_ok (runOn_token? (runOn_placed? hs)), unaryOp?_of_opensOperand ht]
  dsimp only
  rw [runOn_bind_of_ok (runOn_acceptKeyword hs ht _), if_neg Bool.false_ne_true]
  refine sameWhere_bind (fun side => ?_) fun e last he => ?_
  · refine .bind fun broken => .ite (.pure fun _ => rfl) ?_
    refine .bind fun plus => .bind fun minus => .ite ?_ (.pure fun _ => rfl)
    exact .bind fun _ => .bind fun _ => .bind fun _ => .bind fun _ => .pure (hS.of_ordinary rfl)
  · refine ends_lineBreak.bind ?_
    simp only [Bool.or_true, if_true]
    exact .pure _

section
variable {below : Grammar} (hoperators : g.operators = operatorsRest below)
include hoperators

theorem sameWhere_binaryExpr (hS : Operands S) (hc : c.dialect = .plain) :
    SameWhere S (runOn (binaryExpr g) c s) (runOn g.unary c s) := by
  unfold binaryExpr
  rw [hoperators]
  refine (sameWhere_bind (fun left => ?_) fun e last he => ?_).trans
    (sameWhere_tryCatch fun error => ?_)
  · split
    · exact .pure fun _ => rfl
    · exact gives_operatorsRest hS.of_ordinary fun _ => rfl
  · obtain hkind | hkind := hS he
    · rw [hkind]
      exact ends_operatorsRest hc (by rw [hkind]; nofun)
    · rw [hkind]
      exact ends_operatorsRest hc (by rw [hkind]; nofun)
  · refine .bind fun token => ?_
    extract_lets missing
    have hmissing : Gives (fun t => ¬ S t) (missing ()) :=
      .bind fun _ => .bind fun _ => .pure (hS.not_ordinary rfl)
    split
    · exact .bind fun _ => .ite (.bind fun _ => hmissing) hmissing
    · exact hmissing
    · exact hmissing
    · exact .bind fun _ => hmissing

theorem sameWhere_plainAssignment (hS : Operands S) (hs : s.current = some t)
    (ht : opensOperand t.token = true) (hc : c.dialect = .plain) :
    SameWhere S (runOn (plainAssignment g) c s)
      (runOn g.unary c { s with arrowStart := some t.span.lo }) := by
  unfold plainAssignment
  rw [runOn_bind_of_ok (runOn_here (runOn_placed? hs)), runOn_bind_of_ok runOn_context,
    runOn_bind_of_ok (runOn_atKeyword hs _), isKeyword_of_opensOperand ht]
  simp only [Bool.and_false, Bool.false_eq_true, if_false]
  rw [runOn_bind_of_ok (runOn_someToken hs ht)]
  obtain ⟨n, plain, htoken⟩ | htoken := of_opensOperand ht
  all_goals
    rw [htoken, runOn_bind_of_ok (runOn_modify _)]
    refine (sameWhere_bind (fun test => ?_) fun e last he => ?_).trans
      (sameWhere_binaryExpr hoperators hS hc)
    · refine .ite (.pure fun _ => rfl) (.bind fun question => ?_)
      refine .ite (gives_conditionalRest.mono fun _ h => hS.of_ordinary h) ?_
      split
      · exact .pure fun _ => rfl
      · exact .pure fun _ => rfl
      · exact .pure fun _ => rfl
      · exact gives_assignmentRest hS.of_ordinary fun _ => rfl
    · have hends : Ends c last (assignmentRest g t.span.lo e) e := ends_assignmentRest
      obtain hkind | hkind := hS he
      · rw [isArrow, hkind]
        exact .otherwise ((ends_accept _).bind (.otherwise hends))
      · rw [isArrow, hkind]
        exact .otherwise ((ends_accept _).bind (.otherwise hends))

theorem sameWhere_assignmentExpr (hS : Operands S)
    (hplaced : runOn placed? c s = (.ok (some t), s₁)) (hs₁ : s₁.current = some t)
    (ht : opensOperand t.token = true) (hc : c.dialect = .plain) :
    SameWhere S (runOn (assignmentExpr g) c s)
      (runOn g.unary c { s₁ with arrowStart := some t.span.lo }) := by
  have hbound : runOn bound c s = (.ok (2 * (s.lexer.stop - s.lexer.origin) + 7 + 1), s) := rfl
  unfold assignmentExpr
  rw [runOn_bind_of_ok hbound, runOn_bind_of_ok runOn_context, hc,
    runOn_bind_of_ok (runOn_at? hplaced _)]
  simp only [Dialect.plain, Bool.and_self, Bool.false_and, Bool.false_eq_true, if_false]
  unfold genericAssignment
  rw [runOn_bind_of_ok runOn_typed, hc]
  exact sameWhere_plainAssignment hoperators hS hs₁ ht hc

end

end

end Parse
end InlineTemplates.Script
