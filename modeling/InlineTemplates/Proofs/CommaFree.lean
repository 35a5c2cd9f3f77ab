import InlineTemplates.Proofs.OperandRules

/-! # Expressions without a comma

A comma joins expressions only in the rule for them and in parentheses. What the rule for expressions
without a comma at their top gives is never a sequence, however deep constructs are nested in it. -/

namespace InlineTemplates.Script

def Tree.NotSequence (t : Tree) : Prop := t.kind ≠ .expr .sequence

theorem Tree.Ordinary.notSequence {t : Tree} (h : t.Ordinary) : t.NotSequence := by
  intro hsequence
  rw [Tree.Ordinary, hsequence] at h
  cases h

theorem Tree.lasting_notSequence : Lasting NotSequence where
  ordinary := Tree.Ordinary.notSequence
  member _ := nofun
  call _ := nofun

namespace Parse

open InlineTemplates.Script.Tree (NotSequence lasting_notSequence)

/-- None of the rules for expressions without a comma gives a sequence. -/
structure CommaFree (g : Grammar) : Prop where
  assignment : Gives NotSequence g.assignment
  unary : Gives NotSequence g.unary
  operators : ∀ left least, left.NotSequence → Gives NotSequence (g.operators left least)
  memberOrNew : ∀ isNew, Gives NotSequence (g.memberOrNew isNew)
  element : Gives NotSequence g.element

variable {g : Grammar}

/-! ## Primary expressions -/

theorem gives_functionExpr {asyncStart : Option Nat} :
    Gives NotSequence (functionExpr g asyncStart) := by
  unfold functionExpr
  split
  · exact .bind fun start => .bind fun found => .bind fun span => .pure nofun
  · exact .bind fun start => .bind fun found => .bind fun span => .pure nofun

theorem gives_classExpr : Gives NotSequence (classExpr g) := by
  unfold classExpr
  exact .bind fun start => .bind fun found => .bind fun span => .pure nofun

theorem gives_literal? : Gives (∀ a ∈ ·, NotSequence a) literal? := by
  unfold literal?
  refine .bind fun token => ?_
  split
  · next k hk =>
    have hkind : k ≠ .sequence := by
      rintro rfl
      dsimp only at hk
      split at hk <;> cases hk
    exact .bind fun _ => .bind fun span => .pure_some fun h => hkind (Kind.expr.inj h)
  · exact .pure_none

theorem gives_regexLiteral? : Gives (∀ a ∈ ·, NotSequence a) regexLiteral? := by
  unfold regexLiteral?
  refine .bind fun token => ?_
  extract_lets rest
  have hrest (slash : Text) : Gives (∀ a ∈ ·, NotSequence a) (rest slash) := by
    refine .bind fun start => .bind fun _ => .bind fun state => .bind fun _ => .bind fun next => ?_
    split
    · exact .bind fun _ => .bind fun _ => .bind fun span => .bind fun _ => .pure_some nofun
    · exact .pure_none
  split
  · exact .bind fun slash => hrest slash
  · exact .bind fun slash => hrest slash
  · exact .pure_none

theorem gives_arrayLiteral : Gives NotSequence (arrayLiteral g) := by
  unfold arrayLiteral
  refine .within (.bind fun start => .bind fun _ => .bind fun elements => ?_)
  exact .bind fun _ => .bind fun span => .pure nofun

theorem gives_objectLiteral : Gives NotSequence (objectLiteral g) := by
  unfold objectLiteral
  refine .within (.bind fun start => .bind fun found => ?_)
  dsimp only
  split
  · exact .bind fun _ => .bind fun span => .pure nofun
  · exact .bind fun span => .pure nofun

theorem gives_templateLiteral {tagged : Bool} : Gives NotSequence (templateLiteral g tagged) := by
  unfold templateLiteral
  refine .bind fun start => .bind fun _ => .bind fun parts => .bind fun _ => ?_
  exact .bind fun span => .pure nofun

theorem gives_asyncNameRest {start : Nat} {async : Tree} (hasync : async.NotSequence) :
    Gives NotSequence (asyncNameRest g start async) := by
  unfold asyncNameRest
  refine .bind fun c => ?_
  extract_lets noted rest
  have hrest (loopHead : Bool) : Gives NotSequence (rest loopHead) := by
    refine .ite (.ite (.bind fun span => .bind fun _ => .pure hasync) (.pure hasync)) ?_
    refine .bind fun param => .bind fun atArrow => .ite ?_ ?_
    · exact .bind fun t => .bind fun span => .pure nofun
    · exact .bind fun _ => gives_arrowTail.mono fun _ h => h.notSequence
  exact .ite (.bind fun loopHead => hrest loopHead) (.bind fun loopHead => hrest loopHead)

theorem gives_nameOrArrow {start : Nat} {canBeArrow : Bool} :
    Gives NotSequence (nameOrArrow g start canBeArrow) := by
  unfold nameOrArrow
  refine .bind fun token => .bind fun found => ?_
  split
  next n span =>
  extract_lets e arrow rest
  have hname : Tree.NotSequence (.expr (.name n) span []) := nofun
  have harrow : Gives NotSequence (arrow ()) := gives_arrowTail.mono fun _ h => h.notSequence
  refine .perhaps (.bind fun broken => .ite (.pure hname) (.bind fun free => ?_))
  exact .ite (gives_asyncNameRest hname) (.bind fun arrow => .ite (.perhaps harrow) (.pure hname))

theorem gives_conditionalArrow? {start : Nat} {async : Bool} {parts : List Tree} :
    Gives (∀ a ∈ ·, NotSequence a) (conditionalArrow? g start async parts) := by
  unfold conditionalArrow?
  refine .bind fun c => .bind fun colon => .ite .pure_none (.attempt ?_)
  refine .bind fun type => .bind fun _ => .bind fun params => .bind fun body => ?_
  split
  next tree isBlock =>
  exact .bind fun colon => .perhaps (.bind fun span => .pure_some nofun)

theorem gives_parenOrArrow (hg : CommaFree g) {canBeArrow : Bool} {asyncSpan : Option Span} :
    Gives NotSequence (parenOrArrow g canBeArrow asyncSpan) := by
  unfold parenOrArrow
  extract_lets rest
  have hrest (start : Nat) : Gives NotSequence (rest start) := by
    refine .bind fun ⟨parts, comma⟩ => .andThen gives_conditionalArrow? fun found hfound => ?_
    split
    · next arrow => exact .pure (hfound arrow rfl)
    · refine .bind fun type => .bind fun arrow => .ite ?_ (.bind fun _ => ?_)
      · exact gives_arrowFromParts Tree.Ordinary.notSequence hg.operators
      · split
        · exact .bind fun span => .pure nofun
        · split
          · exact .failAt _ _
          · split
            · exact .bind fun span => .failAt _ _
            · exact .bind fun span => .pure nofun
            · exact .bind fun span => .pure nofun
  split
  · exact .bind fun start => hrest start
  · exact .bind fun start => hrest start

theorem gives_asyncFunction? (hg : CommaFree g) {start : Nat} {canBeArrow : Bool} :
    Gives (∀ a ∈ ·, NotSequence a) (asyncFunction? g start canBeArrow) := by
  unfold asyncFunction?
  refine .bind fun named => .ite .pure_none (.bind fun function => .ite ?_ ?_)
  · exact .bind fun _ => .andThen gives_functionExpr fun e he => .pure_some he
  · refine .ite (.bind fun generic => ?_) .pure_none
    extract_lets plain
    have hplain : Gives (∀ a ∈ ·, NotSequence a) (plain ()) := by
      refine .bind fun opens => .ite (.bind fun _ => .bind fun span => ?_) .pure_none
      exact .andThen (gives_parenOrArrow hg) fun e he => .pure_some he
    refine .ite (.andThen (.attempt (.bind fun _ => gives_genericAsyncArrow?)) ?_) hplain
    intro arrow harrow
    exact .ite (.pure fun a ha => (harrow a ha).notSequence) hplain

theorem gives_primary (hg : CommaFree g) : Gives NotSequence (primary g) := by
  unfold primary
  refine .bind fun start => .bind fun state => ?_
  dsimp only
  refine .andThen (gives_asyncFunction? hg) fun async hasync => ?_
  split
  · next e => exact .pure (hasync e rfl)
  refine .andThen gives_literal? fun literal hliteral => ?_
  split
  · next e => exact .pure (hliteral e rfl)
  refine .bind fun token => ?_
  split
  · exact .bind fun _ => .bind fun span => .pure nofun
  · exact gives_arrayLiteral
  · exact gives_objectLiteral
  · exact gives_functionExpr
  · exact .within gives_templateLiteral
  · exact gives_parenOrArrow hg
  refine .andThen gives_regexLiteral? fun regex hregex => ?_
  split
  · next e => exact .pure (hregex e rfl)
  refine .bind fun atClass => .ite gives_classExpr (.bind fun hash => .ite ?_ ?_)
  · exact .bind fun _ => .bind fun span => .pure nofun
  · refine .bind fun _ => .bind fun _ => .bind fun _ => .bind fun _ => ?_
    exact .ite gives_nameOrArrow (.fail _)

/-! ## Members, calls and `new` -/

theorem subscripts_ofPart {kind : PartKind} {span : Span} {parts : List Tree}
    {noCall noIndex : Bool} :
    Gives NotSequence (subscripts g (.ofPart kind span parts) noCall noIndex) :=
  gives_subscripts lasting_notSequence nofun

theorem gives_importCall {start : Nat} {noCall : Bool} {phase : ImportPhase} :
    Gives NotSequence (importCall g start noCall phase) := by
  unfold importCall
  exact .bind fun span => .bind fun _ => subscripts_ofPart

theorem gives_importExpr {start : Nat} {noCall : Bool} :
    Gives NotSequence (importExpr g start noCall) := by
  unfold importExpr
  refine .bind fun dot => .ite gives_importCall (.bind fun found => ?_)
  split
  next n span =>
  extract_lets named
  have hnamed : Gives NotSequence (named ()) := by
    refine .bind fun span => .bind fun c => ?_
    exact .perhaps (gives_subscripts lasting_notSequence nofun)
  exact .ite gives_importCall (.perhaps hnamed)

theorem gives_newRest (hg : CommaFree g) {start : Nat} {isNew : Bool} :
    Gives NotSequence (newRest g start isNew) := by
  unfold newRest
  refine .bind fun dot => .ite (.bind fun target => ?_) ?_
  · extract_lets named
    have hnamed : Gives NotSequence (named ()) := by
      refine .bind fun span => .bind fun c => ?_
      exact .perhaps (gives_subscripts lasting_notSequence nofun)
    exact .perhaps hnamed
  · refine .andThen (hg.memberOrNew isNew) fun callee hcallee => .ite (.pure hcallee) ?_
    extract_lets made rest
    have hmade (typeArgs : Option Tree) : Gives NotSequence (made typeArgs) := by
      refine .bind fun opens => .ite ?_ (.bind fun span => .pure nofun)
      exact .bind fun args => .bind fun span => gives_subscripts lasting_notSequence nofun
    have hrest : Gives NotSequence (rest ()) :=
      .bind fun types => .bind fun less => .ite (.bind hmade) (.bind hmade)
    exact .perhaps hrest

theorem gives_memberOrNewExpr (hg : CommaFree g) {isNew : Bool} :
    Gives NotSequence (memberOrNewExpr g isNew) := by
  unfold memberOrNewExpr
  refine .within (.bind fun start => .bind fun new => .ite (gives_newRest hg) ?_)
  refine .bind fun super => .ite (.bind fun span => subscripts_ofPart) ?_
  refine .bind fun imported => .ite gives_importExpr ?_
  refine .andThen (gives_primary hg) fun e he => .ite (.pure he) (.bind fun args => ?_)
  exact .andThen (gives_instantiated lasting_notSequence he) fun callee hcallee =>
    gives_subscripts lasting_notSequence hcallee

theorem gives_leftHandSideExpr (hg : CommaFree g) : Gives NotSequence (leftHandSideExpr g) := by
  unfold leftHandSideExpr
  refine .bind fun start => .bind fun c => ?_
  extract_lets rest
  have hrest : Gives NotSequence (rest ()) := by
    refine .bind fun super => .ite (.bind fun span => subscripts_ofPart) ?_
    refine .bind fun imported => .ite gives_importExpr ?_
    refine .andThen (hg.memberOrNew true) fun callee hcallee => .ite (.pure hcallee) ?_
    refine .bind fun types => .bind fun less => .bind fun shift => ?_
    extract_lets called
    have hcalled (typeArgs : Option Tree) : Gives NotSequence (called typeArgs) := by
      unfold called
      split
      · split
        · exact .bind fun _ => .pure nofun
        · exact .pure nofun
      · refine .bind fun opens => .ite ?_ (.pure hcallee)
        exact .andThen (gives_callOf lasting_notSequence hcallee) fun call hcall =>
          gives_subscripts lasting_notSequence hcall
    exact .ite (.bind hcalled) (.bind hcalled)
  refine .ite (.bind fun token => ?_) hrest
  split
  · exact .bind fun _ => .bind fun span => .pure nofun
  · exact hg.element
  · exact .bind fun bang => .ite hg.element hrest
  · exact hrest

/-! ## Operators -/

theorem gives_awaitRest {start : Nat} : Gives NotSequence (awaitRest g start) := by
  unfold awaitRest
  refine .bind fun span => .bind fun star => ?_
  extract_lets name operand rest
  have hoperand : Gives NotSequence (operand ()) := .bind fun arg => .bind fun span => .pure nofun
  have hrest : Gives NotSequence (rest ()) := by
    refine .bind fun c => .bind fun _ => .bind fun _ => .bind fun _ => .bind fun _ => ?_
    refine .ite (.perhaps (.pure nofun)) ?_
    extract_lets checked
    have hchecked : Gives NotSequence (checked ()) := .perhaps hoperand
    exact .ite (.bind fun span => .bind fun _ => hchecked) hchecked
  exact .perhaps hrest

theorem gives_unaryRest {start : Nat} {op : UnaryOp} : Gives NotSequence (unaryRest g start op) := by
  unfold unaryRest
  refine .bind fun p => .bind fun arg => ?_
  extract_lets made checked
  have hmade : Gives NotSequence (made ()) := .pure nofun
  have hchecked : Gives NotSequence (checked ()) := .bind fun types => .perhaps hmade
  refine .ite ?_ hmade
  split
  · exact .bind fun _ => hchecked
  · exact hchecked

theorem gives_assertionRest {start : Nat} : Gives NotSequence (assertionRest g start) := by
  unfold assertionRest
  refine .bind fun const => .ite ?_ ?_
  · exact .bind fun _ => .bind fun e => .bind fun span => .pure nofun
  · exact .bind fun t => .bind fun _ => .bind fun e => .bind fun span => .pure nofun

theorem gives_unaryExpr (hg : CommaFree g) : Gives NotSequence (unaryExpr g) := by
  unfold unaryExpr
  refine .bind fun start => .bind fun c => ?_
  extract_lets rest
  have hrest : Gives NotSequence (rest ()) := by
    refine .bind fun plus => .bind fun minus => .ite ?_ (.bind fun token => ?_)
    · exact .bind fun increment => .bind fun _ => .bind fun arg => .bind fun _ => .pure nofun
    · split
      · exact .bind fun _ => gives_unaryRest
      · refine .bind fun await => .ite gives_awaitRest ?_
        refine .andThen (gives_leftHandSideExpr hg) fun e he => .bind fun broken => ?_
        refine .ite (.pure he) (.bind fun plus => .bind fun minus => .ite ?_ (.pure he))
        exact .bind fun _ => .bind fun increment => .bind fun _ => .bind fun span => .pure nofun
  exact .ite (.bind fun less => .ite gives_assertionRest hrest) hrest

theorem gives_binaryExpr (hg : CommaFree g) : Gives NotSequence (binaryExpr g) := by
  unfold binaryExpr
  refine .andThen (.caught hg.unary fun e => .bind fun token => ?_) fun left hleft => ?_
  · extract_lets missing
    have hmissing : Gives NotSequence (missing ()) := .bind fun span => .bind fun _ => .pure nofun
    split
    · exact .bind fun c => .perhaps hmissing
    · exact hmissing
    · exact hmissing
    · exact .bind fun _ => hmissing
  · split
    · exact .pure hleft
    · exact hg.operators left 0 hleft

/-! ## Assignments -/

theorem gives_yieldExpr : Gives NotSequence (yieldExpr g) := by
  unfold yieldExpr
  refine .bind fun start => .bind fun _ => .bind fun c => ?_
  extract_lets rest
  have hrest : Gives NotSequence (rest ()) := by
    refine .bind fun token => .bind fun ended => .ite (.bind fun span => .pure nofun) ?_
    exact .bind fun delegate => .bind fun arg => .bind fun span => .pure nofun
  exact .ite (.bind fun span => .bind fun _ => hrest) hrest

theorem gives_plainAssignment (hg : CommaFree g) : Gives NotSequence (plainAssignment g) := by
  unfold plainAssignment
  refine .bind fun start => .bind fun c => .bind fun yield => .ite gives_yieldExpr ?_
  refine .bind fun token => .bind fun _ => .andThen (gives_binaryExpr hg) fun test htest => ?_
  refine .ite (.pure htest) (.bind fun question => .ite ?_ ?_)
  · exact gives_conditionalRest.mono fun _ h => h.notSequence
  · split
    · exact .pure htest
    · exact .pure htest
    · exact .pure htest
    · exact gives_assignmentRest Tree.Ordinary.notSequence htest

theorem gives_genericArrow? {rest : Parse Tree} :
    Gives (∀ a ∈ ·, NotSequence a) (genericArrow? g rest) := by
  unfold genericArrow?
  refine .bind fun less => .bind fun tag => .ite .pure_none ?_
  refine .bind fun next => .ite .pure_none (.within (.attempt ?_))
  refine .bind fun tag => .bind fun state => .perhaps (.bind fun typeParams => .bind fun arrow => ?_)
  split
  · exact .pure_some nofun
  · exact .unexpected _

theorem gives_genericAssignment (hg : CommaFree g) (n : Nat) :
    Gives NotSequence (genericAssignment g n) := by
  cases n with
  | zero => exact gives_plainAssignment hg
  | succ n =>
    have hplain := gives_plainAssignment hg
    unfold genericAssignment
    refine .bind fun types => .ite (.andThen gives_genericArrow? fun arrow harrow => ?_) hplain
    split
    · next e => exact .pure (harrow e rfl)
    · exact hplain

theorem gives_assignmentExpr (hg : CommaFree g) : Gives NotSequence (assignmentExpr g) := by
  unfold assignmentExpr
  refine .bind fun n => .bind fun c => .bind fun tag => ?_
  have hrest := gives_genericAssignment hg n
  have htried : Gives (∀ a ∈ ·, NotSequence a) (do return some (← genericAssignment g n)) :=
    .andThen hrest fun e he => .pure_some he
  refine .ite (.andThen (.attempt htried) fun found hfound => ?_) hrest
  split
  · next e => exact .pure (hfound e rfl)
  · exact .bind fun _ => hrest

/-! ## Elements -/

theorem gives_element : Gives NotSequence (element g) := by
  unfold element
  refine .bind fun start => .bind fun forced => .bind fun _ => .within (.bind fun opening => ?_)
  split
  · exact .bind fun span => .pure nofun
  · refine .bind fun found => ?_
    split
    exact .perhaps (.bind fun span => .pure nofun)
  · refine .bind fun found => ?_
    split
    exact .perhaps (.bind fun span => .pure nofun)

/-! ## Arguments -/

theorem gives_spreadOrExpr (hg : CommaFree g) : Gives NotSequence (spreadOrExpr g) := by
  unfold spreadOrExpr
  refine .bind fun start => .bind fun dots => .ite ?_ hg.assignment
  exact .bind fun e => .bind fun span => .pure nofun

theorem gives_arguments (hg : CommaFree g) {ofImport : Bool} :
    Gives (∀ a ∈ ·, NotSequence a) (arguments g ofImport) := by
  have hreverse {args : List Tree} (h : ∀ a ∈ args, NotSequence a) :
      ∀ a ∈ args.reverse, NotSequence a := fun a ha => h a (List.mem_reverse.mp ha)
  have hnext {args : List Tree} (h : ∀ a ∈ args, NotSequence a) :
      Gives (Sum.elim (∀ a ∈ ·, NotSequence a) (∀ a ∈ ·, NotSequence a))
        (do return .inl ((← withIn (spreadOrExpr g)) :: args) : Parse (List Tree ⊕ List Tree)) := by
    refine .andThen (.within (gives_spreadOrExpr hg)) fun e he => .pure ?_
    exact List.forall_mem_cons.mpr ⟨he, h⟩
  unfold arguments
  refine .within (.bind fun start => .bind fun _ => ?_)
  refine .andThen (.iterate (I := (∀ a ∈ ·, NotSequence a)) (fun a ha => nomatch ha) ?_)
    fun args hargs => .bind fun _ => .pure hargs
  intro args hargs
  refine .bind fun ended => .bind fun closed => .ite (.pure (hreverse hargs)) ?_
  refine .ite (.bind fun _ => .bind fun closed => .ite ?_ (hnext hargs)) (hnext hargs)
  refine .bind fun types => ?_
  exact .ite (.bind fun span => .bind fun _ => .pure (hreverse hargs)) (.pure (hreverse hargs))

/-! ## All depths -/

theorem commaFree_ofDepth (n : Nat) : CommaFree (Grammar.ofDepth n) := by
  induction n with
  | zero =>
    exact ⟨.failAtEnd, .failAtEnd, fun _ _ _ => .failAtEnd, fun _ => .failAtEnd, .failAtEnd⟩
  | succ n ih =>
    exact {
      assignment := gives_assignmentExpr ih
      unary := gives_unaryExpr ih
      operators := fun left least hleft => gives_operatorsRest Tree.Ordinary.notSequence hleft
      memberOrNew := fun isNew => gives_memberOrNewExpr ih
      element := gives_element }

end Parse
end InlineTemplates.Script
