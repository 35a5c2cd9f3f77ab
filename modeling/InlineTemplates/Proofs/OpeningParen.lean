import InlineTemplates.Proofs.OperandRules

/-! # An expression that starts with a parenthesis

Where an expression is something in parentheses and starts with one, these are the parentheses, for
what follows them would make something else of it; and where the source ends with them nothing is
added. -/

namespace InlineTemplates.Script

def Tree.NotParen (t : Tree) : Prop := t.kind ≠ .expr .paren

/-- Something in parentheses only if it is this tree. -/
def Tree.ParenIs (e t : Tree) : Prop := t.kind = .expr .paren → t = e

/-- What expressions with commas between them are. -/
def commaJoined : List Tree → Option Tree
  | [] => none
  | [e] => some e
  | first :: more =>
    let span : Span := ⟨first.span.lo, (more.getLast?.getD first).span.hi⟩
    some (.expr .sequence span (first :: more))

/-- No spread and no pattern, which stand in parentheses only as parameters. -/
def Tree.StandsInParens (p : Tree) : Prop := p.kind ≠ .part .spread ∧ isPattern p = false

/-- No object with a default for a property, which would be a pattern. -/
def Tree.NoDefaults (p : Tree) : Prop :=
  p.kind = .expr .object → ∀ property ∈ p.parts, property.kind ≠ .prop .assign

theorem Tree.parenIs_self (e : Tree) : e.ParenIs e := fun _ => rfl

theorem Tree.Ordinary.notParen {t : Tree} (h : t.Ordinary) : t.NotParen := by
  intro hp
  rw [Tree.Ordinary, hp] at h
  cases h

theorem Tree.lasting_parenIs (e : Tree) : Lasting e.ParenIs where
  ordinary h hp := absurd hp h.notParen
  member _ hp := nomatch hp
  call _ hp := nomatch hp

namespace Parse

open InlineTemplates.Script.Tree (NotParen ParenIs lasting_parenIs)

variable {g : Grammar} {c : Context} {s s₁ s' : ParseState} {t : PlacedToken} {e : Tree}

/-! ## From an expression to its parenthesis -/

def IsParen (t : Tree) : Prop := t.kind = .expr .paren

theorem operands_isParen : Operands IsParen := Or.inl

/-- The outcomes of two rules, of which the first reads what the second does and what follows it. Of
the first, something in parentheses is what the second gave; and it is, if the source ends there. -/
structure SameParen (outer inner : Except SyntaxError Tree × ParseState) : Prop where
  of_outer : ∀ {e s'}, outer = (.ok e, s') → e.kind = .expr .paren → ∃ s₁, inner = (.ok e, s₁)
  of_inner : ∀ {span part last errors s₁}, inner = (.ok (.expr .paren span [part]), s₁) →
    AtSourceEnd last errors s₁ →
      ∃ s', outer = (.ok (.expr .paren span [part]), s') ∧ AtSourceEnd last errors s'

theorem SameWhere.sameParen {outer inner : Except SyntaxError Tree × ParseState}
    (h : SameWhere IsParen outer inner) : SameParen outer inner where
  of_outer houter he := h.of_outer houter he
  of_inner hinner hend := h.of_inner hinner rfl hend

theorem sameWhere_leftHandSideExpr (hs : s.current = some t) (ht : opensOperand t.token = true)
    (hc : c.dialect = .plain) :
    SameWhere IsParen (runOn (leftHandSideExpr g) c s) (runOn (g.memberOrNew true) c s) := by
  unfold leftHandSideExpr
  rw [runOn_bind_of_ok (runOn_here (runOn_placed? hs)), runOn_bind_of_ok runOn_context, hc]
  simp only [Dialect.plain, Bool.false_eq_true, if_false]
  rw [runOn_bind_of_ok (runOn_acceptKeyword hs ht _), if_neg Bool.false_ne_true,
    runOn_bind_of_ok (runOn_acceptKeyword hs ht _), if_neg Bool.false_ne_true]
  refine sameWhere_bind (fun callee => ?_) fun e last he => ?_
  · refine .ite (.pure callee.parenIs_self) ?_
    refine .bind fun types => .bind fun less => .bind fun shift => ?_
    refine .ite (.bind fun typeArgs => ?_) (.bind fun typeArgs => ?_)
    all_goals
      split
      · split
        · exact .bind fun _ => .pure (operands_isParen.of_ordinary rfl)
        · exact .pure (Tree.parenIs_self _)
      · refine .bind fun opens => .ite ?_ (.pure callee.parenIs_self)
        have hlasting := lasting_parenIs callee
        exact .andThen (gives_callOf hlasting callee.parenIs_self) fun call hcall =>
          gives_subscripts hlasting hcall
  · obtain ⟨kind, span, parts⟩ := e
    cases he
    refine .otherwise ((ends_typed hc).bind ((ends_at? _).bind ((ends_at? _).bind ?_)))
    exact .otherwise ((Ends.pure _).bind ((ends_at? _).bind (.otherwise (.pure _))))

theorem sameWhere_memberOrNewExpr (hs : s.current = some t) (ht : opensOperand t.token = true)
    (hc : c.dialect = .plain) {isNew : Bool} :
    SameWhere IsParen (runOn (memberOrNewExpr g isNew) c s)
      (runOn (primary g) { c with longAngles := true } s) := by
  unfold memberOrNewExpr
  rw [runOn_within, runOn_bind_of_ok (runOn_here (runOn_placed? hs)),
    runOn_bind_of_ok (runOn_acceptKeyword hs ht _), if_neg Bool.false_ne_true,
    runOn_bind_of_ok (runOn_acceptKeyword hs ht _), if_neg Bool.false_ne_true,
    runOn_bind_of_ok (runOn_acceptKeyword hs ht _), if_neg Bool.false_ne_true]
  refine sameWhere_bind (fun first => ?_) fun e last he => ?_
  · refine .ite (.pure first.parenIs_self) (.bind fun args => ?_)
    have hlasting := lasting_parenIs first
    exact .andThen (gives_instantiated hlasting first.parenIs_self) fun next hnext =>
      gives_subscripts hlasting hnext
  · have hlong : ({ c with longAngles := true } : Context).dialect = .plain := hc
    obtain ⟨kind, span, parts⟩ := e
    cases he
    refine .otherwise ((ends_instantiation? hlong).bind ((Ends.pure _).bind ?_))
    exact ends_subscripts hlong rfl

theorem runOn_primary (hs : s.current = some t) (ht : t.token = .mark .parenOpen)
    (harrow : s.arrowStart = some t.span.lo) :
    runOn (primary g) c s = runOn (parenOrArrow g true none) c s := by
  unfold primary
  rw [runOn_bind_of_ok (runOn_here (runOn_placed? hs)), runOn_bind_of_ok runOn_get, harrow]
  have hasync {start : Nat} {canBeArrow : Bool} :
      runOn (asyncFunction? g start canBeArrow) c s = (.ok none, s) := by
    unfold asyncFunction? atName
    rw [runOn_bind, runOn_bind_of_ok (runOn_token? (runOn_placed? hs)), ht]
    rfl
  have hliteral : runOn literal? c s = (.ok none, s) := by
    unfold literal?
    rw [runOn_bind_of_ok (runOn_token? (runOn_placed? hs)), ht]
    rfl
  rw [beq_self_eq_true, runOn_bind_of_ok hasync]
  dsimp only
  rw [runOn_bind_of_ok hliteral]
  dsimp only
  rw [runOn_bind_of_ok (runOn_token? (runOn_placed? hs)), ht]

/-! ## The parentheses -/

theorem of_runOn_conditionalArrow? {start : Nat} {async : Bool} {parts : List Tree}
    {found : Option Tree} (hc : c.dialect = .plain)
    (h : runOn (conditionalArrow? g start async parts) c s = (.ok found, s')) : found = none := by
  unfold conditionalArrow? at h
  rw [runOn_bind_of_ok runOn_context, hc] at h
  obtain ⟨colon, s₁, -, hrest⟩ := of_runOn_bind_ok h
  simp only [Dialect.plain, Bool.not_false, Bool.true_or, if_true, runOn_pure] at hrest
  cases hrest
  rfl

theorem of_runOn_arrowReturnType? {found : Option Tree} (hc : c.dialect = .plain)
    (h : runOn (arrowReturnType? g) c s = (.ok found, s')) : found = none := by
  unfold arrowReturnType? at h
  rw [runOn_bind_of_ok runOn_context, hc] at h
  obtain ⟨colon, s₁, -, hrest⟩ := of_runOn_bind_ok h
  simp only [Dialect.plain, Bool.not_false, Bool.or_true, Bool.true_or, if_true, runOn_pure] at hrest
  cases hrest
  rfl

theorem of_runOn_parenOrArrow {below : Grammar} (hoperators : g.operators = operatorsRest below)
    (hs : s.current = some t) (hc : c.dialect = .plain)
    (h : runOn (parenOrArrow g true none) c s = (.ok e, s')) (he : e.kind = .expr .paren) :
    ∃ parts comma s₁ hi inner,
      runOn (withIn (withoutColon (parenParts g))) c s = (.ok (parts, comma), s₁) ∧
      (∀ p ∈ parts, p.StandsInParens) ∧
      commaJoined parts = some inner ∧ e = .expr .paren ⟨t.span.lo, hi⟩ [inner] := by
  unfold parenOrArrow at h
  dsimp only at h
  rw [runOn_bind_of_ok (runOn_here (runOn_placed? hs))] at h
  obtain ⟨⟨parts, comma⟩, s₁, hparts, h⟩ := of_runOn_bind_ok h
  dsimp only at h
  obtain ⟨conditional, s₂, hconditional, h⟩ := of_runOn_bind_ok h
  obtain rfl := of_runOn_conditionalArrow? hc hconditional
  dsimp only at h
  obtain ⟨type, s₃, htype, h⟩ := of_runOn_bind_ok h
  obtain rfl := of_runOn_arrowReturnType? hc htype
  obtain ⟨arrow, s₄, -, h⟩ := of_runOn_bind_ok h
  have hkeeps : ∀ e least, NotParen e → Gives NotParen (g.operators e least) :=
    fun e least hnot => hoperators ▸ gives_operatorsRest Tree.Ordinary.notParen hnot
  split at h
  · have hnot := gives_iff.mp (gives_arrowFromParts Tree.Ordinary.notParen hkeeps) _ _ _ _ h
    exact absurd he hnot
  next hpattern =>
  obtain ⟨-, s₅, -, h⟩ := of_runOn_bind_ok h
  split at h
  · have hnot : e.NotParen := gives_iff.mp (.failAt _ _) _ _ _ _ h
    exact absurd he hnot
  · next hspread =>
    have hparens : ∀ p ∈ parts, p.StandsInParens := by
      intro p hp
      simp only [Bool.or_eq_true, not_or, List.any_eq_true, not_exists, not_and] at hpattern
      simp only [List.find?_eq_none, beq_iff_eq] at hspread
      exact ⟨hspread p hp, by simpa using hpattern.1.1 p hp⟩
    cases parts with
    | nil =>
      have hnot : e.NotParen := gives_iff.mp (.bind fun _ => .failAt _ _) _ _ _ _ h
      exact absurd he hnot
    | cons first more =>
      cases more with
      | nil =>
        rw [runOn_bind_of_ok (runOn_spanFrom _)] at h
        cases h
        exact ⟨_, _, _, _, _, hparts, hparens, rfl, rfl⟩
      | cons second more =>
        rw [runOn_bind_of_ok (runOn_spanFrom _)] at h
        cases h
        exact ⟨_, _, _, _, _, hparts, hparens, rfl, rfl⟩

theorem runOn_parenOrArrow_of_parts {parts : List Tree} {comma : Option Span} {inner : Tree}
    {last : Span} {errors : List SyntaxError} (hs : s.current = some t)
    (hparts : runOn (withIn (withoutColon (parenParts g))) c s = (.ok (parts, comma), s₁))
    (hend : AtSourceEnd last errors s₁) (hparens : ∀ p ∈ parts, p.StandsInParens)
    (hdefaults : ∀ p ∈ parts, p.NoDefaults) (hinner : commaJoined parts = some inner) :
    ∃ s', runOn (parenOrArrow g true none) c s =
        (.ok (.expr .paren ⟨t.span.lo, last.hi⟩ [inner]), s') ∧ AtSourceEnd last errors s' := by
  have hpattern : parts.any isPattern = false := by
    simpa using fun p hp => (hparens p hp).2
  have hspread : parts.find? (·.kind == .part .spread) = none := by
    simpa using fun p hp => (hparens p hp).1
  unfold parenOrArrow
  dsimp only
  rw [runOn_bind_of_ok (runOn_here (runOn_placed? hs)), runOn_bind_of_ok hparts]
  refine Ends.bind ends_conditionalArrow? (ends_arrowReturnType?.bind ?_) _ _ hend
  refine (ends_at? _).bind ?_
  dsimp only
  rw [hpattern, hspread]
  refine .otherwise ((ends_forIn fun p hp => ?_).bind ?_)
  · have hsame : (if (p.kind == .part .spread) = true then p.part 0 else p) = p :=
      if_neg (by simpa using (hparens p hp).1)
    rw [hsame]
    split
    · next hobject =>
      refine (ends_forIn fun property hproperty => ?_).bind (.pure _)
      rw [if_neg (by simpa using hdefaults p hp (by simpa using hobject) property hproperty)]
      exact .pure _
    · exact .pure _
  · cases parts with
    | nil => cases hinner
    | cons first more =>
      cases more with
      | nil =>
        cases hinner
        exact (ends_spanFrom _).bind (.pure _)
      | cons second more =>
        cases hinner
        exact (ends_spanFrom _).bind (.pure _)

/-! ## The parentheses that a source opens with -/

/-- What is in the parentheses that a source opens with: the parts, and a comma after them. The
grammar is the one that the way to the parentheses, through four of its rules, has left. -/
def openingParts (source : Text) : Parse (List Tree × Option Span) := do
  let start ← here
  modify fun s => { s with arrowStart := some start }
  within ({ · with longAngles := true }) <| withIn <| withoutColon <|
    parenParts (Grammar.ofDepth (Grammar.depthOf source - 4))

def openingToken : PlacedToken := ⟨.mark .parenOpen, ⟨1, 2⟩, true⟩

theorem next_openingToken (rest : Text) : ∃ l,
    (Lexer.ofSource ('(' :: rest) 1).next { dialect := .plain } = (some openingToken, l) :=
  ⟨_, rfl⟩

variable {rest : Text} {inner : Tree}

theorem runOn_expression :
    runOn expression c s = runOn (Grammar.ofDepth (Grammar.depthOf s.source)).expr c s := by
  unfold expression
  rw [runOn_bind_of_ok runOn_get]

/-- An expression that starts with a parenthesis is read as something in parentheses as the rule for
these alone reads it. -/
theorem sameParen_expression (rest : Text) :
    ∃ g below s, g.operators = operatorsRest below ∧ s.current = some openingToken ∧
      runOn (openingParts ('(' :: rest)) { dialect := .plain } (startOf ('(' :: rest)) =
        runOn (withIn (withoutColon (parenParts g))) { dialect := .plain, longAngles := true } s ∧
      SameParen (runOn expression { dialect := .plain } (startOf ('(' :: rest)))
        (runOn (parenOrArrow g true none) { dialect := .plain, longAngles := true } s) := by
  obtain ⟨n, hdepth⟩ : ∃ n, Grammar.depthOf ('(' :: rest) = n + 5 :=
    ⟨8 * ('(' :: rest).length + 11, rfl⟩
  obtain ⟨l, hnext⟩ := next_openingToken rest
  obtain ⟨opened, hplaced, hopened⟩ : ∃ opened,
      runOn placed? { dialect := .plain } (startOf ('(' :: rest)) =
        (.ok (some openingToken), opened) ∧ opened.current = some openingToken :=
    ⟨_, runOn_placed?_of_next rfl rfl hnext, rfl⟩
  have hhere : runOn here { dialect := .plain } (startOf ('(' :: rest)) = (.ok 1, opened) :=
    runOn_here hplaced
  have hstarted : ({ opened with arrowStart := some 1 } : ParseState).current =
    some openingToken := hopened
  refine ⟨Grammar.ofDepth (n + 1), Grammar.ofDepth n, { opened with arrowStart := some 1 }, rfl,
    hstarted, ?_, ?_⟩
  · unfold openingParts
    rw [runOn_bind_of_ok hhere, runOn_bind_of_ok (runOn_modify _), hdepth]
    rfl
  · rw [runOn_expression]
    change SameParen (runOn (Grammar.ofDepth (Grammar.depthOf ('(' :: rest))).expr _ _) _
    rw [hdepth, ← runOn_primary hstarted rfl rfl]
    have hassignment := sameWhere_assignmentExpr (g := Grammar.ofDepth (n + 3)) rfl
      operands_isParen hplaced hopened rfl rfl
    refine SameWhere.sameParen ?_
    exact (sameWhere_sequenceExpr operands_isParen).trans <| hassignment.trans <|
      (sameWhere_unaryExpr operands_isParen hstarted rfl rfl).trans <|
      (sameWhere_leftHandSideExpr hstarted rfl rfl).trans <|
      sameWhere_memberOrNewExpr hstarted rfl rfl

theorem of_runOn_expression
    (h : runOn expression { dialect := .plain } (startOf ('(' :: rest)) = (.ok e, s'))
    (he : e.kind = .expr .paren) :
    ∃ parts comma s₁ hi inner,
      runOn (openingParts ('(' :: rest)) { dialect := .plain } (startOf ('(' :: rest)) =
        (.ok (parts, comma), s₁) ∧
      (∀ p ∈ parts, p.StandsInParens) ∧
      commaJoined parts = some inner ∧ e = .expr .paren ⟨1, hi⟩ [inner] := by
  obtain ⟨g, below, s, hoperators, hs, hopening, hsame⟩ := sameParen_expression rest
  obtain ⟨s₁, hparens⟩ := hsame.of_outer h he
  rw [hopening]
  exact of_runOn_parenOrArrow hoperators hs rfl hparens he

theorem runOn_expression_of_parts {parts : List Tree} {comma : Option Span} {s₁ : ParseState}
    {last : Span} {errors : List SyntaxError}
    (hparts : runOn (openingParts ('(' :: rest)) { dialect := .plain } (startOf ('(' :: rest)) =
      (.ok (parts, comma), s₁))
    (hend : AtSourceEnd last errors s₁) (hparens : ∀ p ∈ parts, p.StandsInParens)
    (hdefaults : ∀ p ∈ parts, p.NoDefaults) (hinner : commaJoined parts = some inner) :
    ∃ s', runOn expression { dialect := .plain } (startOf ('(' :: rest)) =
        (.ok (.expr .paren ⟨1, last.hi⟩ [inner]), s') ∧ AtSourceEnd last errors s' := by
  obtain ⟨g, below, s, hoperators, hs, hopening, hsame⟩ := sameParen_expression rest
  rw [hopening] at hparts
  obtain ⟨s₂, hparens₂, hend₂⟩ :=
    runOn_parenOrArrow_of_parts hs hparts hend hparens hdefaults hinner
  exact hsame.of_inner hparens₂ hend₂

end Parse
end InlineTemplates.Script
