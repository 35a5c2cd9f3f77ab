import InlineTemplates.Proofs.Lexing.Words

/-! # Operands in front of a mark that ends them

An expression may go on behind each of its operands. In front of a comma, of a closing bracket or at
the end of the source it does not: each rule that looks for more leaves the operand as it is. -/

namespace InlineTemplates.Script

/-- What comes behind a whole expression. -/
def closers : List (Option Token) :=
  [none, some (.mark .comma), some (.mark .semicolon), some (.mark .colon), some (.mark .parenClose),
    some (.mark .bracketClose), some (.mark .braceClose)]

namespace Parse

/-- These contexts stay what they are under the changes that expressions make. -/
structure ExprContexts (C : Context → Prop) : Prop where
  allowIn {c : Context} : C c → C { c with allowIn := true }
  colonAhead {c : Context} : C c → C { c with colonAhead := false }
  longAngles {c : Context} : C c → C { c with longAngles := true }
  inPropertyName {c : Context} : C c → C { c with inPropertyName := true }

theorem exprContexts_all : ExprContexts fun _ => True := ⟨id, id, id, id⟩

variable {C : Context → Prop} {c : Context} {g : Grammar} {x y z : Text} {t? : Option Token}
  {e obj tree : Tree} {n : Text}

/-! ## Trees that are operands -/

/-- An expression that may be called and that no operator made. -/
def isOperand (t : Tree) : Bool := match t.kind with
  | .expr k => match k with
    | .arrow _ _ | .new _ | .binary _ | .unary _ | .update _ _ | .chain _ | .nonNull => false
    | .name n => n != text "import"
    | _ => true
  | _ => false

section
variable {t : Tree} (h : isOperand t = true)
include h

theorem isExpr_of_isOperand : t.isExpr = true := by
  obtain ⟨kind, span, parts⟩ := t
  cases kind with
  | expr k => rfl
  | _ => cases h

theorem isArrow_of_isOperand : isArrow t = false := by
  obtain ⟨kind, span, parts⟩ := t
  cases kind with
  | expr k => cases k <;> first | rfl | cases h
  | _ => rfl

theorem isChain_of_isOperand : isChain t = false := by
  obtain ⟨kind, span, parts⟩ := t
  cases kind with
  | expr k => cases k <;> first | rfl | cases h
  | _ => rfl

theorem asImportCallee_of_isOperand : asImportCallee t = t := by
  unfold asImportCallee
  split
  · next n span parts =>
    rw [if_neg]
    simpa [isOperand, Tree.kind] using h
  · rfl

theorem isCallee_of_isOperand (k : PartKind) : isCallee t k = false := by
  obtain ⟨kind, span, parts⟩ := t
  cases kind with
  | expr _ => rfl
  | _ => cases h

end

/-! ## Members and calls -/

section
variable (hy : Shows y t?)
include hy

theorem takes_instantiation? (ht : isMark (.op .lt) t? = false) :
    Takes C c y y (instantiation? g) (· = none) := by
  have hangle : Takes C c y y (typed <&&> at? (.op .lt)) (· = false) := by
    have hat := hy.at? (C := C) (c := c) (.op .lt)
    rw [ht] at hat
    have htyped : Takes C c y y typed (· = c.dialect.types) := Takes.typed
    cases htypes : c.dialect.types with
    | false => exact (htypes ▸ htyped).and_of_false
    | true => exact (htypes ▸ htyped).and_of_true hat
  exact hangle.not.andThen (.taken (.pure rfl))

theorem takes_typedCall? (ht : isMark (.op .lt) t? = false) (start : Nat) (noCall : Bool) :
    Takes C c y y (typedCall? g start obj noCall) (· = none) := by
  refine Takes.typed.andThen ((hy.at? _).andThen ?_)
  rw [ht, Bool.not_false, Bool.or_true]
  exact .taken (.pure rfl)

theorem takes_acceptQuestionDot (ht : isMark .question t? = false) :
    Takes C c y y acceptQuestionDot (· = false) := by
  have hat := hy.at? (C := C) (c := c) .question
  rw [ht] at hat
  exact hat.and_of_false.andThen (.otherwise (.pure rfl))

end

/-- The marks that go on with an operand, besides operators, a dot and the parenthesis of a call. -/
def accesses : List Mark :=
  [.bang, .op .lt, .op .shiftLeft, .question, .bracketOpen, .backquote, .arrow]

theorem takes_subscript {P : Tree × Bool → Prop} {start : Nat} {noCall noIndex : Bool}
    (hy : Shows y t?) (hother : ∀ m ∈ accesses, isMark m t? = false) (hobj : isOperand obj = true)
    (hcall : (!noCall && isMark .parenOpen t?) = true →
      Takes C c y z (callOf g start obj .absent false) fun e => P (e, true))
    (hdot : isMark .dot t? = true → ∃ w, Leads y (.mark .dot) w ∧
      Takes C c w z (nameAccess g start obj false noCall) fun e => P (e, true))
    (hstop : (!noCall && isMark .parenOpen t?) = false → isMark .dot t? = false →
      y = z ∧ P (obj, false)) :
    Takes C c y z (subscript g start obj noCall noIndex) P := by
  have hexpr := isExpr_of_isOperand hobj
  have hlook (m : Mark) (hm : m ∈ accesses) : Takes C c y y (at? m) (· = false) :=
    hother m hm ▸ hy.at? m
  have hangle := hother (.op .lt) (by decide)
  have hquestion := hother .question (by decide)
  unfold subscript
  refine Takes.typed.andThen ?_
  extract_lets failed rest nonNull word
  have hrest : Takes C c y z (rest ()) P := by
    refine Takes.andThen (takes_instantiation? hy hangle) ?_
    refine Takes.andThen (takes_acceptQuestionDot hy hquestion) (hy.here.before fun bracket => ?_)
    extract_lets callWith chained calls dotted
    have hcalls : Takes C c y z (calls ()) P := by
      refine (hy.at? _).andThen (.otherwise (Takes.andThen (.pure rfl) (.otherwise ?_)))
      refine (hy.at? _).andThen ?_
      rw [Bool.false_or]
      cases hparen : !noCall && isMark .parenOpen t? with
      | true =>
        refine .taken (Takes.typed.andThen ((hlook (.op .lt) (by decide)).andThen ?_))
        rw [Bool.and_false]
        refine .otherwise (Takes.andThen (.pure rfl) ?_)
        exact (hcall hparen).bind fun e he => .pure he
      | false =>
        refine .otherwise ?_
        cases hisDot : isMark .dot t? with
        | true =>
          obtain ⟨w, hw, hname⟩ := hdot hisDot
          exact (Takes.accept hw).andThen (.taken (hname.bind fun e he => .pure he))
        | false =>
          obtain ⟨rfl, hP⟩ := hstop hparen hisDot
          refine (hy.accept_other hisDot).andThen (.otherwise ?_)
          rw [if_pos hexpr]
          refine Takes.andThen (.pure rfl) ((hlook .backquote (by decide)).andThen ?_)
          exact .otherwise (.pure hP)
    cases noIndex with
    | true => exact .otherwise hcalls
    | false =>
      refine .taken ((hy.at? _).andThen (.otherwise (Takes.andThen (.pure rfl) (.otherwise ?_))))
      exact (hy.accept_other (hother _ (by decide))).andThen (.otherwise hcalls)
  cases c.dialect.types with
  | false => exact .otherwise hrest
  | true =>
    refine .taken ((hlook .bang (by decide)).andThen (hy.lineBreak.before fun ends => ?_))
    refine .otherwise ((takes_typedCall? hy hangle start noCall).andThen ?_)
    exact hrest

/-- Nothing goes on with a callee here, but perhaps the parenthesis of a call. -/
structure Rests (y : Text) (noCall : Bool) (t? : Option Token) : Prop where
  shows : Shows y t?
  accesses : ∀ m ∈ accesses, isMark m t? = false
  dot : isMark .dot t? = false
  call : (!noCall && isMark .parenOpen t?) = false

def memberTokens (members : List Text) : List Token :=
  members.flatMap fun m => [.mark .dot, wordToken m]

def membersOf (obj : Tree) (members : List Text) : Tree :=
  members.foldl (fun obj m => .expr .member .nowhere [obj, nameTree m]) obj

theorem takes_memberName {m : Text} (h : Leads x (wordToken m) y) :
    Takes C c x y memberName (IsLeaf (.name m)) := by
  refine (Takes.at? h _).andThen ?_
  rw [isMark_wordToken]
  exact .otherwise (takes_anyName h)

theorem takes_nameAccess {m : Text} {start : Nat} {noCall : Bool} (hobj : tree.Is obj)
    (hoperand : isOperand obj = true) (h : Leads x (wordToken m) y) (hy : Shows y t?)
    (ht : isMark (.op .lt) t? = false) :
    Takes C c x y (nameAccess g start obj false noCall) fun e =>
      (Tree.expr .member .nowhere [tree, nameTree m]).Is e ∧ isOperand e = true := by
  refine (takes_memberName h).bind fun prop hprop => ?_
  refine (Takes.spanFrom _).before fun whole => (takes_instantiation? hy ht).andThen ?_
  rw [isCallee_of_isOperand hoperand]
  refine .otherwise ((Takes.spanFrom _).before fun chain => .pure ?_)
  rw [memberOf, isChain_of_isOperand hoperand]
  exact ⟨.node (congrArg₂ (fun t u => [t, u]) hobj hprop.is), rfl⟩

theorem shows_members {members : List Text} {noCall : Bool} (h : Lexes x (memberTokens members) y)
    (hy : Rests y noCall t?) : ∃ u?, Shows x u? ∧ ∀ m ∈ accesses, isMark m u? = false := by
  cases members with
  | nil =>
    obtain rfl := h
    exact ⟨t?, hy.shows, hy.accesses⟩
  | cons m more =>
    obtain ⟨z, hz, -⟩ := h
    exact ⟨_, .of_leads hz, by decide⟩

theorem takes_subscripts {members : List Text} {noCall noIndex : Bool} (hobj : tree.Is obj)
    (hoperand : isOperand obj = true) (h : Lexes x (memberTokens members) y)
    (hy : Rests y noCall t?) :
    Takes C c x y (subscripts g obj noCall noIndex) fun e =>
      (membersOf tree members).Is e ∧ isOperand e = true := by
  have hlength : members.length ≤ x.length := by
    have hle := h.length_le
    rw [memberTokens, List.length_flatMap] at hle
    simp at hle
    omega
  unfold subscripts
  refine Takes.iterate hlength fun n => ?_
  generalize obj.span.lo = start
  clear hlength
  induction members generalizing x obj tree with
  | nil =>
    obtain rfl := h
    have hstop : Takes C c x x (subscript g start obj noCall noIndex) (· = (obj, false)) := by
      refine takes_subscript hy.shows hy.accesses hoperand (fun hcall => ?_) (fun hdot => ?_)
        fun _ _ => ⟨rfl, rfl⟩
      · cases hy.call.symm.trans hcall
      · cases hy.dot.symm.trans hdot
    exact Takes.andThen (hstop.andThen (.pure rfl)) (.pure ⟨hobj, hoperand⟩)
  | cons m more ih =>
    obtain ⟨w, hdot, z, hname, hrest⟩ := h
    obtain ⟨u?, hz, hu⟩ := shows_members hrest hy
    have hstep : Takes C c x z (subscript g start obj noCall noIndex) fun found =>
        (Tree.expr .member .nowhere [tree, nameTree m]).Is found.1 ∧
          isOperand found.1 = true ∧ found.2 = true := by
      refine takes_subscript (.of_leads hdot) (by decide) hoperand (fun hcall => ?_) (fun _ => ?_)
        fun _ hno => by cases hno
      · rw [Bool.and_eq_true] at hcall
        cases hcall.2
      · refine ⟨w, hdot, (takes_nameAccess hobj hoperand hname hz (hu _ (by decide))).mono ?_⟩
        exact fun e he => ⟨he.1, he.2, rfl⟩
    refine Takes.bind (y := z) (P := fun r : Tree ⊕ Tree => ∃ e, r = .inl e ∧
      (Tree.expr .member .nowhere [tree, nameTree m]).Is e ∧ isOperand e = true) ?_ ?_
    · refine hstep.bind ?_
      rintro ⟨e, goes⟩ ⟨he, hoperand', rfl⟩
      exact .pure ⟨e, rfl, he, hoperand'⟩
    · rintro _ ⟨e, rfl, he, hoperand'⟩
      exact ih he hoperand' hrest

/-! ## From a primary expression to an assignment -/

/-- Whether an operand that is no literal of another sort starts with the token. -/
def startsOperand : Token → Bool
  | .name n _ => n != text "async"
  | .string _ _ => true
  | .keyword k => [Keyword.null, .true, .false].contains k
  | .mark m => [Mark.parenOpen, .bracketOpen, .braceOpen].contains m
  | _ => false

/-- The outcome of a rule that reads an operand. -/
def IsOperandOf (tree e : Tree) : Prop := tree.Is e ∧ isOperand e = true

section
variable {t : Token} (h : startsOperand t = true)
include h

theorem isMark_of_startsOperand {m : Mark}
    (hm : [Mark.parenOpen, .bracketOpen, .braceOpen].contains m = false) :
    isMark m (some t) = false := by
  cases t with
  | mark m' =>
    refine beq_eq_false_iff_ne.mpr ?_
    rintro rfl
    cases h.symm.trans hm
  | _ => rfl

theorem isKeyword_of_startsOperand {k : Keyword}
    (hk : [Keyword.null, .true, .false].contains k = false) : isKeyword k (some t) = false := by
  cases t with
  | keyword k' =>
    refine beq_eq_false_iff_ne.mpr ?_
    rintro rfl
    cases h.symm.trans hk
  | _ => rfl

end

theorem rests_of_mem_closers {noCall : Bool} (hy : Shows y t?) (ht : t? ∈ closers) :
    Rests y noCall t? where
  shows := hy
  accesses :=
    have hall : ∀ u? ∈ closers, ∀ m ∈ accesses, isMark m u? = false := by decide
    hall t? ht
  dot :=
    have hall : ∀ u? ∈ closers, isMark .dot u? = false := by decide
    hall t? ht
  call := by
    have hall : ∀ u? ∈ closers, isMark .parenOpen u? = false := by decide
    rw [hall t? ht, Bool.and_false]

section
variable (hC : ExprContexts C) {t : Token} {w : Text} {members : List Text}
include hC

theorem takes_memberOrNewExpr {isNew : Bool} (hx : Leads x t w) (ht : startsOperand t = true)
    (hprimary : ∀ c, Takes C c x y (primary g) (IsOperandOf tree))
    (h : Lexes y (memberTokens members) z) (hz : Rests z true t?) :
    Takes C c x z (memberOrNewExpr g isNew) (IsOperandOf (membersOf tree members)) := by
  obtain ⟨u?, hy, hu⟩ := shows_members h hz
  refine .within hC.longAngles ((Takes.here hx).before fun start => ?_)
  refine (Takes.acceptKeyword_other hx (isKeyword_of_startsOperand ht rfl)).andThen (.otherwise ?_)
  refine (Takes.acceptKeyword_other hx (isKeyword_of_startsOperand ht rfl)).andThen (.otherwise ?_)
  refine (Takes.acceptKeyword_other hx (isKeyword_of_startsOperand ht rfl)).andThen (.otherwise ?_)
  refine (hprimary _).bind fun e he => ?_
  rw [isArrow_of_isOperand he.2]
  refine .otherwise ((takes_instantiation? hy (hu _ (by decide))).andThen ?_)
  exact Takes.andThen (.pure rfl) (takes_subscripts he.1 he.2 h hz)

end

section
variable {t : Token} {w : Text}

theorem takes_leftHandSideExpr {P : Tree → Prop} (hx : Leads x t w) (ht : startsOperand t = true)
    (hmember : Takes C c x y (g.memberOrNew true) (IsOperandOf tree)) (hy : Shows y t?)
    (hother : ∀ m ∈ accesses, isMark m t? = false)
    (hcall : isMark .parenOpen t? = true → ∀ start callee, IsOperandOf tree callee →
      Takes C c y z (callOf g start callee .absent false >>= (subscripts g · false false)) P)
    (hstop : isMark .parenOpen t? = false → y = z ∧ ∀ callee, IsOperandOf tree callee → P callee) :
    Takes C c x z (leftHandSideExpr g) P := by
  have hlook (m : Mark) (hm : m ∈ accesses) : Takes C c y y (at? m) (· = false) :=
    hother m hm ▸ hy.at? m
  unfold leftHandSideExpr
  refine (Takes.here hx).before fun start => Takes.context.andThen ?_
  extract_lets untagged
  have huntagged : Takes C c x z (untagged ()) P := by
    refine (Takes.acceptKeyword_other hx (isKeyword_of_startsOperand ht rfl)).andThen (.otherwise ?_)
    refine (Takes.acceptKeyword_other hx (isKeyword_of_startsOperand ht rfl)).andThen (.otherwise ?_)
    refine hmember.bind fun callee hcallee => ?_
    rw [isArrow_of_isOperand hcallee.2]
    refine .otherwise (Takes.typed.andThen ((hlook (.op .lt) (by decide)).andThen ?_))
    refine (hlook (.op .shiftLeft) (by decide)).andThen ?_
    rw [Bool.or_self, Bool.and_false]
    refine .otherwise (Takes.andThen (.pure rfl) ?_)
    split
    · cases hcallee.2
    · refine (hy.at? _).andThen ?_
      cases hparen : isMark .parenOpen t? with
      | true => exact .taken (hcall hparen start callee hcallee)
      | false =>
        obtain ⟨rfl, hP⟩ := hstop hparen
        exact .otherwise (.pure (hP callee hcallee))
  cases c.dialect.tags with
  | false => exact .otherwise huntagged
  | true =>
    refine .taken ((takes_someToken hx).andThen ?_)
    split
    · cases ht
    · cases ht
    · cases ht
    · exact huntagged

theorem takes_callOf {args : List Tree} {start : Nat} (hobj : IsOperandOf tree obj)
    (hargs : Takes C c y z (arguments g false) (·.map Tree.eraseSpans = args)) :
    Takes C c y z (callOf g start obj .absent false)
      (IsOperandOf (.expr .call .nowhere [tree, .list args, .absent])) := by
  have hcallee : isImportCallee obj = false := by
    have hexpr := isExpr_of_isOperand hobj.2
    obtain ⟨kind, span, parts⟩ := obj
    cases kind with
    | expr k => rfl
    | _ => cases hexpr
  unfold callOf
  rw [asImportCallee_of_isOperand hobj.2]
  dsimp only
  rw [hcallee]
  refine hargs.bind fun found hfound => (Takes.spanFrom _).before fun span => ?_
  rw [isChain_of_isOperand hobj.2]
  refine .otherwise (.pure ⟨.node ?_, rfl⟩)
  rw [List.map_cons, List.map_cons, List.map_singleton, hobj.1, Tree.list, Tree.eraseSpans_node,
    hfound]
  rfl

theorem takes_unaryExpr (hx : Leads x t w) (ht : startsOperand t = true)
    (hside : Takes C c x y (leftHandSideExpr g) (IsOperandOf tree)) (hy : Shows y t?)
    (hclose : t? ∈ closers) : Takes C c x y (unaryExpr g) (IsOperandOf tree) := by
  have hmark (m : Mark) (hm : [Mark.parenOpen, .bracketOpen, .braceOpen].contains m = false) :
      Takes C c x x (at? m) (· = false) := isMark_of_startsOperand ht hm ▸ Takes.at? hx m
  have hbehind (m : Mark) (hm : ∀ u? ∈ closers, isMark m u? = false) :
      Takes C c y y (at? m) (· = false) := hm t? hclose ▸ hy.at? m
  have hunary : unaryOp? (some t) = none := by
    cases t with
    | mark m =>
      have hm : ∀ m ∈ [Mark.parenOpen, .bracketOpen, .braceOpen],
          unaryOp? (some (.mark m)) = none := by decide
      exact hm m (List.contains_iff_mem.mp ht)
    | keyword k =>
      have hk : ∀ k ∈ [Keyword.null, .true, .false], unaryOp? (some (.keyword k)) = none := by decide
      exact hk k (List.contains_iff_mem.mp ht)
    | _ => rfl
  unfold unaryExpr
  refine (Takes.here hx).before fun start => Takes.context.andThen ?_
  extract_lets rest
  have hrest : Takes C c x y (rest ()) (IsOperandOf tree) := by
    refine (hmark _ rfl).andThen ((hmark _ rfl).andThen (.otherwise ?_))
    refine (Takes.token? hx).andThen ?_
    rw [hunary]
    refine (Takes.acceptKeyword_other hx (isKeyword_of_startsOperand ht rfl)).andThen (.otherwise ?_)
    refine hside.bind fun e he => hy.lineBreak.before fun ends => ?_
    cases isArrow e || ends with
    | true => exact .taken (.pure he)
    | false =>
      refine .otherwise ((hbehind _ (by decide)).andThen ((hbehind _ (by decide)).andThen ?_))
      exact .otherwise (.pure he)
  cases c.dialect.types && !c.dialect.tags with
  | false => exact .otherwise hrest
  | true =>
    refine .taken ((Takes.accept_other hx (isMark_of_startsOperand ht rfl)).andThen ?_)
    exact .otherwise hrest

theorem takes_operatorsRest {least : Nat} (he : isOperand e = true) (hy : Shows y t?)
    (hclose : t? ∈ closers) : Takes C c y y (operatorsRest g e least) (· = e) := by
  have hname (name : String) : isName name t? = false := by
    have hall : ∀ u? ∈ closers, isName name u? = false := by
      simp only [closers, List.forall_mem_cons, isName]
      simp
    exact hall t? hclose
  have htype : Takes C c y y (typeOperator? g e least) (· = none) := by
    refine Takes.typed.andThen (hy.lineBreak.before fun ends => ?_)
    cases !c.dialect.types || ends with
    | true => exact .taken (.pure rfl)
    | false =>
      refine .otherwise ((hy.atName _).andThen ?_)
      rw [hname, Bool.and_false]
      refine .otherwise ((hy.atName _).andThen ?_)
      rw [hname]
      exact .otherwise (.pure rfl)
  have hstep : Takes C c y y (operatorStep g e least) (· = none) := by
    have hop : ∀ u? ∈ closers, binaryOp? c u? = none := by
      simp only [closers, List.forall_mem_cons, binaryOp?]
      simp
    refine htype.andThen (Takes.context.andThen (hy.token?.andThen ?_))
    rw [hop t? hclose]
    exact .pure rfl
  have hcheck : Takes C c y y (operatorsRest.checkOperand e) fun _ => True := by
    unfold operatorsRest.checkOperand
    split
    · next heq _ =>
      rw [isOperand, heq] at he
      cases he
    · exact .pure trivial
  refine Takes.iterate (k := 0) (Nat.zero_le _) fun n => ?_
  refine Takes.andThen (hstep.andThen (hcheck.before fun _ => .pure rfl)) (.pure rfl)

theorem takes_binaryExpr (hunary : Takes C c x y (unaryExpr g) (IsOperandOf tree))
    (hy : Shows y t?) (hclose : t? ∈ closers) :
    Takes C c x y (binaryExpr (.above g)) (IsOperandOf tree) := by
  refine Takes.bind (P := IsOperandOf tree) (.tryCatch hunary) fun e he => ?_
  split
  · next heq =>
    have hoperand := he.2
    rw [isOperand, heq] at hoperand
    cases hoperand
  · exact (takes_operatorsRest he.2 hy hclose).mono fun _ h => h ▸ he

theorem takes_assignmentRest {start : Nat} (hy : Shows y t?) (hclose : t? ∈ closers) :
    Takes C c y y (assignmentRest g start e) (· = e) := by
  refine hy.token?.andThen ?_
  split
  · have hall : ∀ u? ∈ closers, ∀ op, u? ≠ some (.mark (.assign op)) := by
      simp [closers]
    exact absurd rfl (hall _ hclose _)
  · exact .pure rfl

theorem takes_plainAssignment (hx : Leads x t w) (ht : startsOperand t = true)
    (hunary : Takes C c x y (unaryExpr g) (IsOperandOf tree)) (hy : Shows y t?)
    (hclose : t? ∈ closers) :
    Takes C c x y (plainAssignment (.above g)) (IsOperandOf tree) := by
  have hquestion : ∀ u? ∈ closers, isMark .question u? = false := by decide
  unfold plainAssignment
  refine (Takes.here hx).before fun start => Takes.context.andThen ((Takes.atKeyword hx _).andThen ?_)
  rw [isKeyword_of_startsOperand ht rfl, Bool.and_false]
  refine .otherwise ((takes_someToken hx).andThen ?_)
  refine Takes.before (Takes.modify (fun _ => rfl) (fun _ => rfl) fun _ => rfl) fun _ => ?_
  refine (takes_binaryExpr hunary hy hclose).bind fun test htest => ?_
  rw [isArrow_of_isOperand htest.2]
  refine .otherwise ((hy.accept_other (hquestion t? hclose)).andThen (.otherwise ?_))
  split
  · exact .pure htest
  · exact .pure htest
  · exact .pure htest
  · exact (takes_assignmentRest hy hclose).mono fun _ h => h ▸ htest

theorem takes_assignmentExpr (hx : Leads x t w) (ht : startsOperand t = true)
    (hunary : Takes C c x y (unaryExpr g) (IsOperandOf tree)) (hy : Shows y t?)
    (hclose : t? ∈ closers) :
    Takes C c x y (assignmentExpr (.above g)) (IsOperandOf tree) := by
  have hgeneric (n : Nat) :
      Takes C c x y (genericAssignment (.above g) n) (IsOperandOf tree) := by
    have hplain := takes_plainAssignment hx ht hunary hy hclose
    cases n with
    | zero => exact hplain
    | succ n =>
      refine Takes.typed.andThen ?_
      cases c.dialect.types with
      | false => exact .otherwise hplain
      | true =>
        have harrow (rest : Parse Tree) : Takes C c x x (genericArrow? (.above g) rest) (· = none) := by
          refine (Takes.at? hx _).andThen ((Takes.at? hx _).andThen ?_)
          rw [isMark_of_startsOperand ht rfl, isMark_of_startsOperand ht rfl]
          exact .taken (.pure rfl)
        exact .taken ((harrow _).andThen hplain)
  have hbound : Takes C c x x bound fun _ => True := fun _ _ _ s hs => ⟨_, s, rfl, trivial, hs⟩
  refine hbound.before fun n => Takes.context.andThen ((Takes.at? hx _).andThen ?_)
  rw [isMark_of_startsOperand ht rfl, Bool.and_false]
  exact .otherwise (hgeneric n)

end

end Parse
end InlineTemplates.Script
