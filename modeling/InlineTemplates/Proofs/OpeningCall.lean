import InlineTemplates.Proofs.CommaFree
import InlineTemplates.Proofs.Erasure
import InlineTemplates.Proofs.WholeCode

/-! # A source that opens with a call of the template function

The way to the arguments is the same whatever they are. Behind them nothing can follow that leaves
the call as it is; so what the source is read as is decided by the rule for arguments. -/

namespace InlineTemplates.Script.Parse

/-! ## The way to the arguments -/

/-- A text that opens with a call of the template function, of which the arguments are left. -/
def openedCall (rest : Text) : Text := text "Ember.HTMLBars.template(" ++ rest

def afterEmber (rest : Text) : Text :=
  '.' :: 'H' :: 'T' :: 'M' :: 'L' :: 'B' :: 'a' :: 'r' :: 's' :: '.' :: 't' :: 'e' :: 'm' :: 'p' ::
    'l' :: 'a' :: 't' :: 'e' :: '(' :: rest

def memberContext : Context := { aloneContext with longAngles := true }

def lexerBehind (stop : Nat) (token : PlacedToken) (enclosures : List Enclosure) (allowed : Bool)
    (rest : Text) : Lexer where
  rest := rest
  position := token.span.hi
  enclosures := enclosures
  exprAllowed := allowed
  lineBreak := token.lineBreak
  lineBreakBeforeLast := token.lineBreak
  atStart := false
  last := some (.of token.token)
  lastEnd := token.span.hi
  tokenStart := token.span.lo
  origin := 1
  stop := stop

def emberToken : PlacedToken := ⟨.name ['E', 'm', 'b', 'e', 'r'] false, ⟨1, 6⟩, true⟩

def dotToken (lo : Nat) : PlacedToken := ⟨.mark .dot, ⟨lo, lo + 1⟩, false⟩

def htmlBarsToken : PlacedToken :=
  ⟨.name ['H', 'T', 'M', 'L', 'B', 'a', 'r', 's'] false, ⟨7, 15⟩, false⟩

def templateToken : PlacedToken :=
  ⟨.name ['t', 'e', 'm', 'p', 'l', 'a', 't', 'e'] false, ⟨16, 24⟩, false⟩

def argumentsToken : PlacedToken := ⟨.mark .parenOpen, ⟨24, 25⟩, false⟩

section
variable {stop : Nat} {rest : Text}

theorem next_ember :
    Lexer.next
        { rest := 'E' :: 'm' :: 'b' :: 'e' :: 'r' :: '.' :: rest
          position := 1
          lastEnd := 1
          origin := 1
          stop := stop } aloneContext =
      (some emberToken, lexerBehind stop emberToken [.blockBrace] false ('.' :: rest)) := rfl

theorem next_dot_ember :
    (lexerBehind stop emberToken [.blockBrace] false ('.' :: 'H' :: rest)).next memberContext =
      (some (dotToken 6), lexerBehind stop (dotToken 6) [.blockBrace] false ('H' :: rest)) := rfl

theorem next_htmlBars :
    (lexerBehind stop (dotToken 6) [.blockBrace] false
        ('H' :: 'T' :: 'M' :: 'L' :: 'B' :: 'a' :: 'r' :: 's' :: '.' :: rest)).next memberContext =
      (some htmlBarsToken, lexerBehind stop htmlBarsToken [.blockBrace] false ('.' :: rest)) := rfl

theorem next_dot_htmlBars :
    (lexerBehind stop htmlBarsToken [.blockBrace] false ('.' :: 't' :: rest)).next memberContext =
      (some (dotToken 15), lexerBehind stop (dotToken 15) [.blockBrace] false ('t' :: rest)) := rfl

theorem next_template :
    (lexerBehind stop (dotToken 15) [.blockBrace] false
        ('t' :: 'e' :: 'm' :: 'p' :: 'l' :: 'a' :: 't' :: 'e' :: '(' :: rest)).next memberContext =
      (some templateToken, lexerBehind stop templateToken [.blockBrace] false ('(' :: rest)) := rfl

theorem next_arguments :
    (lexerBehind stop templateToken [.blockBrace] false ('(' :: rest)).next memberContext =
      (some argumentsToken,
        lexerBehind stop argumentsToken [.exprParen, .blockBrace] true rest) := rfl

end

variable {g : Grammar} {c : Context} {s s₁ : ParseState} {e : Tree}

theorem runOn_previous : runOn previous c s = (.ok s.previous, s) := rfl

theorem runOn_lineBreak {t : PlacedToken} (hplaced : runOn placed? c s = (.ok (some t), s₁)) :
    runOn lineBreak c s = (.ok t.lineBreak, s₁) := runOn_then hplaced rfl

theorem runOn_anyWord {t : PlacedToken} {n : Text} {plain : Bool} (hs : s.current = some t)
    (ht : t.token = .name n plain) : runOn anyWord c s =
      (.ok (n, t.span), { s with current := none, previous := t.span }) := by
  have hsome := runOn_someToken (c := c) hs (by rw [ht]; rfl)
  rw [ht] at hsome
  exact runOn_then hsome (runOn_then (runOn_advance hs) (runOn_then runOn_previous rfl))

theorem runOn_acceptQuestionDot {t : PlacedToken}
    (hplaced : runOn placed? c s = (.ok (some t), s₁))
    (ht : isMark .question (some t.token) = false) :
    runOn acceptQuestionDot c s = (.ok false, s₁) := by
  have hat : runOn (at? .question) c s = (.ok false, s₁) := by rw [runOn_at? hplaced, ht]
  have hquestion : runOn (at? .question <&&> nextAt .dot) c s = (.ok false, s₁) :=
    runOn_then hat rfl
  exact runOn_then hquestion rfl

theorem runOn_subscript_dot {dot name : PlacedToken} {n : Text} {plain : Bool} {l : Lexer}
    {start : Nat} (hc : c.dialect = .plain) (hplaced : runOn placed? c s = (.ok (some dot), s₁))
    (hs₁ : s₁.current = some dot) (hdot : dot.token = .mark .dot) (hfollowing : s₁.following = none)
    (hnext : s₁.lexer.next c = (some name, l)) (hname : name.token = .name n plain)
    (hobj : isCallee e .super = false) :
    runOn (subscript g start e true false) c s =
      (.ok (memberOf ⟨e.span.lo, name.span.hi⟩ ⟨start, name.span.hi⟩ e
          (.ofPart (.name n) name.span []) false false, true),
        { s₁ with current := none, lexer := l, previous := name.span }) := by
  have hlook (m : Mark) : runOn (at? m) c s₁ = (.ok (Mark.dot == m), s₁) := by
    rw [runOn_at? (runOn_placed? hs₁), hdot]
    rfl
  have hquestion : runOn acceptQuestionDot c s = (.ok false, s₁) :=
    runOn_acceptQuestionDot hplaced (by rw [hdot]; rfl)
  have hbracket : runOn (accept .bracketOpen) c s₁ = (.ok false, s₁) := by
    refine runOn_accept_other (runOn_placed? hs₁) ?_
    rw [hdot]
    rfl
  have hmember : runOn memberName c { s₁ with current := none, previous := dot.span } =
      (.ok (.ofPart (.name n) name.span []),
        { s₁ with current := none, lexer := l, previous := name.span }) := by
    have hread := runOn_placed?_of_next
      (s := { s₁ with current := none, previous := dot.span }) rfl hfollowing hnext
    have hhash := runOn_at? hread .hash
    rw [hname] at hhash
    exact runOn_then hhash (runOn_otherwise (runOn_then (runOn_anyWord rfl hname) rfl))
  unfold subscript
  refine runOn_then (runOn_untyped hc) (runOn_otherwise ?_)
  refine runOn_then (runOn_instantiation? hc) (runOn_then hquestion ?_)
  refine runOn_then (runOn_here (runOn_placed? hs₁)) (runOn_taken ?_)
  refine runOn_then (hlook _) (runOn_otherwise (runOn_then (runOn_pure _) (runOn_otherwise ?_)))
  refine runOn_then hbracket (runOn_otherwise (runOn_then (hlook _) (runOn_otherwise ?_)))
  refine runOn_then (runOn_pure _) (runOn_otherwise (runOn_then (hlook _) (runOn_otherwise ?_)))
  refine runOn_then (runOn_accept hs₁ hdot) (runOn_taken (runOn_then ?_ (runOn_pure _)))
  unfold nameAccess
  refine runOn_then hmember (runOn_then (runOn_spanFrom _) ?_)
  refine runOn_then (runOn_instantiation? hc) ?_
  rw [hobj]
  exact runOn_otherwise (runOn_then (runOn_spanFrom _) (runOn_pure _))

theorem runOn_primary_ember {l : Lexer} {next : PlacedToken} (hs : s.current = some emberToken)
    (hfollowing : s.following = none) (hnext : s.lexer.next c = (some next, l))
    (hline : next.lineBreak = false) (harrow : isMark .arrow (some next.token) = false)
    (hstrict : c.strict = false) :
    runOn (primary g) c s =
      (.ok (.expr (.name (text "Ember")) ⟨1, 6⟩ []),
        { s with current := some next, lexer := l, previous := ⟨1, 6⟩ }) := by
  have htoken := runOn_token? (runOn_placed? (c := c) hs)
  have hmark (m : Mark) : runOn (at? m) c s = (.ok false, s) := by
    rw [runOn_at? (runOn_placed? hs)]
    rfl
  have hkeyword (k : Keyword) : runOn (atKeyword k) c s = (.ok false, s) := by
    rw [runOn_atKeyword hs]
    rfl
  have hasync {start : Nat} {canBeArrow : Bool} :
      runOn (asyncFunction? g start canBeArrow) c s = (.ok none, s) := by
    refine runOn_then (a := false) ?_ rfl
    exact runOn_then htoken rfl
  have hliteral : runOn literal? c s = (.ok none, s) := runOn_then htoken rfl
  have hregex : runOn regexLiteral? c s = (.ok none, s) := runOn_then htoken rfl
  have hfree : runOn atFreeWord c s = (.ok true, s) := by
    refine runOn_then runOn_context (runOn_then htoken ?_)
    rw [emberToken, isFreeWord, Context.reservesName, hstrict]
    rfl
  have hname {start : Nat} {canBeArrow : Bool} : runOn (nameOrArrow g start canBeArrow) c s =
      (.ok (.expr (.name (text "Ember")) ⟨1, 6⟩ []),
        { s with current := some next, lexer := l, previous := ⟨1, 6⟩ }) := by
    have hword : runOn reference c s =
        (.ok (text "Ember", ⟨1, 6⟩), { s with current := none, previous := ⟨1, 6⟩ }) := by
      refine runOn_then runOn_context (runOn_then runOn_context ?_)
      refine runOn_then (runOn_someToken hs rfl) (runOn_otherwise ?_)
      exact runOn_then (runOn_advance hs) (runOn_then runOn_previous rfl)
    have hread := runOn_placed?_of_next
      (s := { s with current := none, previous := ⟨1, 6⟩ }) rfl hfollowing hnext
    have hbreak := runOn_lineBreak hread
    rw [hline] at hbreak
    refine runOn_then htoken (runOn_then hword (runOn_otherwise (runOn_then hbreak ?_)))
    cases canBeArrow with
    | false => rfl
    | true =>
      have hplaced := runOn_placed? (c := c)
        (s := { s with current := some next, lexer := l, previous := ⟨1, 6⟩ }) rfl
      refine runOn_then (runOn_then runOn_context (runOn_then (runOn_token? hplaced) rfl)) ?_
      exact runOn_otherwise (runOn_then (runOn_accept_other hplaced harrow) rfl)
  unfold primary
  refine runOn_then (runOn_here (runOn_placed? hs)) (runOn_then runOn_get ?_)
  refine runOn_then hasync (runOn_then hliteral (runOn_then htoken (runOn_then hregex ?_)))
  refine runOn_then (hkeyword _) (runOn_otherwise ?_)
  refine runOn_then (runOn_accept_other (runOn_placed? hs) rfl) (runOn_otherwise ?_)
  refine runOn_then hfree (runOn_then (hkeyword _) (runOn_then runOn_typed ?_))
  exact runOn_then (hkeyword _) (runOn_taken hname)

theorem runOn_subscript_paren {paren : PlacedToken} {start : Nat} (hc : c.dialect = .plain)
    (hplaced : runOn placed? c s = (.ok (some paren), s₁)) (hs₁ : s₁.current = some paren)
    (hparen : paren.token = .mark .parenOpen) (hobj : e.isExpr = true) :
    runOn (subscript g start e true false) c s = (.ok (e, false), s₁) := by
  have hlook (m : Mark) : runOn (at? m) c s₁ = (.ok (Mark.parenOpen == m), s₁) := by
    rw [runOn_at? (runOn_placed? hs₁), hparen]
    rfl
  have hother {m : Mark} (hm : (Mark.parenOpen == m) = false) :
      runOn (accept m) c s₁ = (.ok false, s₁) := by
    refine runOn_accept_other (runOn_placed? hs₁) ?_
    rw [hparen, ← hm]
    rfl
  have hquestion : runOn acceptQuestionDot c s = (.ok false, s₁) :=
    runOn_acceptQuestionDot hplaced (by rw [hparen]; rfl)
  unfold subscript
  refine runOn_then (runOn_untyped hc) (runOn_otherwise ?_)
  refine runOn_then (runOn_instantiation? hc) (runOn_then hquestion ?_)
  refine runOn_then (runOn_here (runOn_placed? hs₁)) (runOn_taken ?_)
  refine runOn_then (hlook _) (runOn_otherwise (runOn_then (runOn_pure _) (runOn_otherwise ?_)))
  refine runOn_then (hother rfl) (runOn_otherwise (runOn_then (hlook _) (runOn_otherwise ?_)))
  refine runOn_then (runOn_pure _) (runOn_otherwise (runOn_then (hlook _) (runOn_otherwise ?_)))
  refine runOn_then (hother rfl) (runOn_otherwise ?_)
  rw [if_pos hobj]
  refine runOn_then (runOn_pure _) (runOn_then (hlook _) (runOn_otherwise (runOn_pure _)))

/-! ## In front of the arguments -/

/-- The state behind a token that an expression at the front of a source opens with. -/
def stateBehind (source : Text) (token : PlacedToken) (enclosures : List Enclosure) (allowed : Bool)
    (rest : Text) (previous : Span) : ParseState where
  source := source
  lexer := lexerBehind (1 + source.length) token enclosures allowed rest
  current := some token
  previous := previous
  arrowStart := some 1

def readFunction : Tree :=
  .expr .member ⟨1, 24⟩
    [.expr .member ⟨1, 15⟩
      [.expr (.name (text "Ember")) ⟨1, 6⟩ [], .ofPart (.name (text "HTMLBars")) ⟨7, 15⟩ []],
    .ofPart (.name (text "template")) ⟨16, 24⟩ []]

/-- The state in which the parenthesis of the arguments comes next. -/
def beforeArguments (rest : Text) : ParseState :=
  stateBehind (openedCall rest) argumentsToken [.exprParen, .blockBrace] true rest ⟨16, 24⟩

theorem runOn_bound : runOn bound c s = (.ok (2 * (s.lexer.stop - s.lexer.origin) + 8), s) := rfl

theorem runOn_subscripts_more {start n : Nat} {obj : Tree} {r : Except SyntaxError Tree × ParseState}
    (h : runOn (subscript g start obj true false) c s = (.ok (e, true), s₁))
    (hmore : runOn (iterateUpTo (fun e => do
      let (next, more) ← subscript g start e true false
      return if more then .inl next else .inr next) n e) c s₁ = r) :
    runOn (iterateUpTo (fun e => do
      let (next, more) ← subscript g start e true false
      return if more then .inl next else .inr next) (n + 1) obj) c s = r :=
  runOn_then (runOn_then h (runOn_pure _)) hmore

theorem runOn_memberOrNew_ember (rest : Text) :
    runOn (memberOrNewExpr g true) aloneContext
        (stateBehind (openedCall rest) emberToken [.blockBrace] false (afterEmber rest) ⟨1, 1⟩) =
      (.ok readFunction, beforeArguments rest) := by
  unfold memberOrNewExpr
  rw [runOn_within]
  refine runOn_then (runOn_here (runOn_placed? rfl)) ?_
  refine runOn_then (runOn_acceptKeyword rfl rfl _) (runOn_otherwise ?_)
  refine runOn_then (runOn_acceptKeyword rfl rfl _) (runOn_otherwise ?_)
  refine runOn_then (runOn_acceptKeyword rfl rfl _) (runOn_otherwise ?_)
  refine runOn_then (runOn_primary_ember rfl rfl next_dot_ember rfl rfl rfl) (runOn_otherwise ?_)
  refine runOn_then (runOn_instantiation? rfl) (runOn_then (runOn_pure _) ?_)
  refine runOn_then runOn_bound ?_
  refine runOn_subscripts_more
    (runOn_subscript_dot rfl (runOn_placed? rfl) rfl rfl rfl next_htmlBars rfl rfl) ?_
  refine runOn_subscripts_more
    (runOn_subscript_dot rfl (runOn_placed?_of_next rfl rfl next_dot_htmlBars) rfl rfl rfl
      next_template rfl rfl) ?_
  refine runOn_then (runOn_then (runOn_subscript_paren rfl
    (runOn_placed?_of_next rfl rfl next_arguments) rfl rfl rfl) (runOn_pure _)) ?_
  rfl

/-! ## From the call to its arguments -/

def callWith (args : List Tree) (span : Span) : Tree :=
  .expr .call span [templateFunction, .list args, .absent]

/-- A call of the template function, wherever its parts stand. -/
def IsTemplateCall (t : Tree) : Prop := ∃ args, t.eraseSpans = callWith args .nowhere

theorem IsTemplateCall.kind {t : Tree} (h : IsTemplateCall t) : t.kind = .expr .call := by
  obtain ⟨args, h⟩ := h
  rw [← t.kind_eraseSpans, h]
  rfl

theorem operands_isTemplateCall : Operands IsTemplateCall := fun h => .inr h.kind

/-- A name, or a member of one, however deep. -/
def isDotted : Tree → Bool
  | .node (.expr (.name _)) _ _ => true
  | .node (.expr .member) _ [obj, _] => isDotted obj
  | _ => false

theorem isDotted_eraseSpans (t : Tree) : isDotted t.eraseSpans = isDotted t := by
  fun_induction isDotted t with
  | case1 n span parts => rfl
  | case2 span obj prop ih => exact ih
  | case3 t hname hmember =>
    obtain ⟨kind, span, parts⟩ := t
    rw [Tree.eraseSpans_node]
    unfold isDotted
    split
    · next heq =>
      cases heq
      exact (hname _ _ _ rfl).elim
    · next heq =>
      simp only [Tree.node.injEq, List.map_eq_cons_iff, List.map_eq_nil_iff] at heq
      obtain ⟨rfl, -, obj, _, rfl, -, prop, _, rfl, -, rfl⟩ := heq
      exact (hmember _ _ _ rfl).elim
    · rfl

theorem isDotted_of_ordinary {t : Tree} (h : t.Ordinary) : isDotted t = false := by
  unfold isDotted
  split
  · cases h
  · cases h
  · rfl

/-- No member and no call makes another call of the template function of this tree. -/
def CallIs (e t : Tree) : Prop := isDotted t = false ∧ (IsTemplateCall t → t = e)

theorem lasting_callIs (e : Tree) : Tree.Lasting (CallIs e) where
  ordinary h :=
    ⟨isDotted_of_ordinary h, fun hcall => absurd hcall (operands_isTemplateCall.not_ordinary h)⟩
  member h := ⟨h.1, fun hcall => nomatch hcall.kind⟩
  call h := by
    -- Its callee is not dotted, and the template function is.
    refine ⟨rfl, ?_⟩
    rintro ⟨args, hcall⟩
    have hobj := h.1
    rw [← isDotted_eraseSpans] at hobj
    simp only [Tree.expr, Tree.eraseSpans, Tree.eraseSpansAll, callWith] at hcall
    injection hcall with _ _ hparts
    injection hparts with hparts
    rw [hparts] at hobj
    cases hobj

/-- The call of the template function as it is read, up to a position. -/
def readCall (args : List Tree) (hi : Nat) : Tree :=
  .expr .call ⟨1, hi⟩ [readFunction, .list args, .absent]

theorem eraseSpans_readCall (args : List Tree) (hi : Nat) :
    (readCall args hi).eraseSpans = callWith (args.map Tree.eraseSpans) .nowhere := by
  simp only [readCall, callWith, Tree.expr, Tree.list, Tree.eraseSpans_node, List.map_cons,
    List.map_nil]
  rfl

section
variable {args : List Tree}

theorem of_runOn_callOf_readFunction
    (h : runOn (callOf g 1 readFunction .absent false) c s = (.ok e, s')) :
    ∃ args, runOn (arguments g false) c s = (.ok args, s') ∧ e = readCall args s'.previous.hi := by
  obtain ⟨args, s₁, hargs, hrest⟩ := of_runOn_bind_ok h
  cases hrest
  exact ⟨args, hargs, rfl⟩

theorem runOn_callOf_readFunction (h : runOn (arguments g false) c s = (.ok args, s₁)) :
    runOn (callOf g 1 readFunction .absent false) c s =
      (.ok (readCall args s₁.previous.hi), s₁) := runOn_then h rfl

end

theorem sameWhere_leftHandSide_call {below : Grammar} (rest : Text)
    (hbelow : g.memberOrNew = memberOrNewExpr below) :
    SameWhere IsTemplateCall
      (runOn (leftHandSideExpr g) aloneContext
        (stateBehind (openedCall rest) emberToken [.blockBrace] false (afterEmber rest) ⟨1, 1⟩))
      (runOn (callOf g 1 readFunction .absent false) aloneContext (beforeArguments rest)) := by
  have hember := runOn_memberOrNew_ember (g := below) rest
  have hlhs : runOn (leftHandSideExpr g) aloneContext
      (stateBehind (openedCall rest) emberToken [.blockBrace] false (afterEmber rest) ⟨1, 1⟩) =
      runOn (callOf g 1 readFunction .absent false >>= fun e => subscripts g e false false)
        aloneContext (beforeArguments rest) := by
    unfold leftHandSideExpr
    refine runOn_then (runOn_here (runOn_placed? rfl)) (runOn_then runOn_context ?_)
    refine runOn_otherwise ?_
    refine runOn_then (runOn_acceptKeyword rfl rfl _) (runOn_otherwise ?_)
    refine runOn_then (runOn_acceptKeyword rfl rfl _) (runOn_otherwise ?_)
    rw [hbelow]
    refine runOn_then hember (runOn_otherwise ?_)
    refine runOn_then (runOn_untyped rfl) (runOn_then (runOn_at? (runOn_placed? rfl) _) ?_)
    refine runOn_then (runOn_at? (runOn_placed? rfl) _) (runOn_otherwise ?_)
    refine runOn_then (runOn_pure _) ?_
    exact runOn_then (runOn_at? (runOn_placed? rfl) _) rfl
  rw [hlhs]
  -- Behind the call further members and calls may follow, but none makes such a call again.
  refine sameWhere_andThen (P := fun call => isDotted call = false) ?_ (fun call hcall => ?_)
    fun e last he => ?_
  · refine .bind fun args => .bind fun span => ?_
    exact .pure rfl
  · refine (gives_subscripts (lasting_callIs call) ⟨hcall, fun _ => rfl⟩).mono fun _ h => h.2
  · refine ends_subscripts rfl ?_
    rw [Tree.isExpr, he.kind]

/-- What comes of reading the arguments of the call that a source opens with. The grammar is the one
that the way to the parenthesis, through three of its rules, has left. -/
def readArguments (rest : Text) : Except SyntaxError (List Tree) × ParseState :=
  runOn (arguments (Grammar.ofDepth (Grammar.depthOf (openedCall rest) - 3)) false) aloneContext
    (beforeArguments rest)

theorem sameWhere_expression_call (rest : Text) :
    SameWhere IsTemplateCall (runOn expression aloneContext (startOf (openedCall rest)))
      (runOn (callOf (Grammar.ofDepth (Grammar.depthOf (openedCall rest) - 3)) 1 readFunction .absent
        false) aloneContext (beforeArguments rest)) := by
  obtain ⟨n, hdepth⟩ : ∃ n, Grammar.depthOf (openedCall rest) = n + 4 :=
    ⟨8 * (openedCall rest).length + 12, rfl⟩
  have hplaced : runOn placed? aloneContext (startOf (openedCall rest)) = (.ok (some emberToken), _) :=
    runOn_placed?_of_next rfl rfl next_ember
  rw [runOn_expression]
  change SameWhere _ (runOn (Grammar.ofDepth (Grammar.depthOf (openedCall rest))).expr _ _) _
  rw [hdepth]
  have hassignment := sameWhere_assignmentExpr (g := Grammar.ofDepth (n + 2)) rfl
    operands_isTemplateCall hplaced rfl rfl rfl
  exact (sameWhere_sequenceExpr operands_isTemplateCall).trans <| hassignment.trans <|
    (sameWhere_unaryExpr operands_isTemplateCall rfl rfl rfl).trans <|
    sameWhere_leftHandSide_call rest rfl

end InlineTemplates.Script.Parse
