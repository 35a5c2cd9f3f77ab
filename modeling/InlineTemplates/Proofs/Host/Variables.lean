import InlineTemplates.Proofs.Data.Lists
import InlineTemplates.Proofs.Lexing.Items

/-! # Variables as they are read

A variable of a module with a value: the word, the name, the value and a semicolon. -/

namespace InlineTemplates.Script

def VarKind.keyword : VarKind → Keyword
  | .var => .var
  | .let => .let
  | .const => .const

/-- Where a variable of a module has its value. -/
def valueContext (d : Dialect) : Context :=
  { moduleContext d with allowIn := true, colonAhead := false, allowUsing := true }

def variableTree (kind : VarKind) (n : Text) (value : Tree) : Tree :=
  .stmt (.var kind false) .nowhere
    [.ofPart (.declarator false) .nowhere [.pat (.name n false) .nowhere [.absent], value]]

namespace Parse

variable {C : Context → Prop} {c : Context} {d : Dialect} {g : Grammar} {kind : VarKind}
  {n w x y z : Text} {value : Tree}

theorem takes_bindingPattern (hn : Declarable n) {reservesLet : Bool} (h : Leads x (wordToken n) y) :
    Takes C c x y (bindingPattern g reservesLet)
      fun pat => ∃ span, pat = .pat (.name n false) span [.absent] := by
  have hname : Takes C c x y (declaredName reservesLet)
      fun pat => ∃ span, pat = .pat (.name n false) span [.absent] := by
    refine (takes_declaredWord hn h).bind ?_
    rintro ⟨_, span⟩ rfl
    exact .pure ⟨span, rfl⟩
  refine (takes_someToken h).andThen ?_
  rw [hn.token]
  exact hname

theorem takes_declarator (hn : Declarable n) (hx : Leads x (wordToken n) y)
    (hy : Leads y (.mark (.assign .plain)) z) (hvalue : Takes C c z w g.assignment value.Is) :
    Takes C c x w (declarator g kind false)
      (Tree.Is (.ofPart (.declarator false) .nowhere
        [.pat (.name n false) .nowhere [.absent], value])) := by
  refine (Takes.here hx).before fun start => (takes_bindingPattern hn hx).bind ?_
  rintro _ ⟨span, rfl⟩
  have hbang : Takes C c y y (typed <&&> accept .bang) (· = false) := by
    refine Takes.typed.andThen ?_
    cases c.dialect.types with
    | false => exact .pure rfl
    | true => exact Takes.accept_other hy rfl
  have htype : Takes C c y y (annotatedType? g) (· = .absent) := by
    refine Takes.typed.andThen ((Takes.at? hy _).andThen ?_)
    rw [show isMark .colon (some (.mark (.assign .plain))) = false from rfl, Bool.and_false]
    exact .otherwise (.pure rfl)
  refine hbang.andThen (htype.andThen ?_)
  extract_lets pat make
  refine (Takes.atName hy _).before fun ofWord => (Takes.atKeyword hy _).before fun inWord => ?_
  refine (Takes.accept hy).andThen (.otherwise (.taken (hvalue.bind fun e he => ?_)))
  exact (Takes.spanFrom _).before fun whole => .pure (.node (congrArg _ (congrArg (· :: []) he)))

theorem takes_declarators {one : Parse Tree} {tree : Tree} {afterWord : Span} {t : Token}
    (hx : Leads x t z) (ht : isMark .semicolon (some t) = false) (hone : Takes C c x w one tree.Is)
    (hw : Leads w (.mark .semicolon) y) :
    Takes C c x w (declarators afterWord one) (·.map Tree.eraseSpans = [tree]) := by
  refine Takes.iterate (k := 0) (Nat.zero_le _) fun m => ?_
  refine Takes.bind (y := w) (P := fun r : List Tree ⊕ List Tree => ∃ e, r = .inr [e] ∧ tree.Is e) ?_ ?_
  · refine (Takes.at? hx _).andThen ((Takes.atEnd hx).andThen ?_)
    rw [ht]
    refine .otherwise (hone.bind fun e he => (Takes.accept_other hw rfl).andThen (.otherwise ?_))
    exact .pure ⟨e, rfl, he⟩
  · rintro _ ⟨e, rfl, he⟩
    exact .pure (congrArg (· :: []) he)

theorem takes_variableDeclaration (hC : ExprContexts C) (hn : Declarable n)
    (h : Lexes x [.keyword kind.keyword, wordToken n, .mark (.assign .plain)] z)
    (hvalue : Takes C { c with allowIn := true } z w g.assignment value.Is)
    (hw : Leads w (.mark .semicolon) y) :
    Takes C c x y (variableDeclaration g false) (variableTree kind n value).Is := by
  obtain ⟨x₁, hword, x₂, hname, _, hassign, rfl⟩ := h
  have hone (b : Bool) : Takes C c x₁ w
      (within (fun c => { c with allowIn := c.allowIn || b || !false }) (declarator g kind false))
      (Tree.Is (.ofPart (.declarator false) .nowhere
        [.pat (.name n false) .nowhere [.absent], value])) := by
    have hallowed : (c.allowIn || b || !false) = true := Bool.or_true _
    refine .within (fun hc => ?_) ?_
    · rw [hallowed]
      exact hC.allowIn hc
    · rw [hallowed]
      exact takes_declarator hn hname hassign hvalue
  have hsemicolon : Takes C c w y acceptSemicolon (· = true) :=
    (Takes.accept hw).andThen (.taken (.pure rfl))
  refine (Takes.here hword).before fun start => (Takes.token? hword).andThen ?_
  cases kind
  all_goals
    refine (Takes.advance hword).before fun _ => Takes.previous.before fun word => .otherwise ?_
    refine Takes.andThen (.pure rfl) (.otherwise ?_)
    refine (takes_declarators hname (isMark_wordToken n _) (hone _) hw).bind fun ds hds => .taken ?_
    refine hsemicolon.andThen (.otherwise ?_)
    exact (Takes.spanFrom _).before fun span => .pure (.node hds)

theorem isName_wordToken_enum (hn : Declarable n) : isName "enum" (some (wordToken n)) = false := by
  rw [hn.token]
  exact beq_false_of_ne hn.2.2.1

theorem takes_variableItem (hn : Declarable n)
    (h : Lexes x [.keyword kind.keyword, wordToken n, .mark (.assign .plain)] z)
    (hvalue : Takes (fun _ => True) (valueContext d) z w g.assignment value.Is)
    (hw : Leads w (.mark .semicolon) y) :
    Takes (fun _ => True) (moduleContext d) x y (moduleItemOf g) (variableTree kind n value).Is := by
  obtain ⟨x₁, hword, x₂, hname, -⟩ := id h
  let c : Context := { moduleContext d with colonAhead := false, allowUsing := true }
  have hdeclaration : Takes (fun _ => True) c x y (variableDeclaration g false)
      (variableTree kind n value).Is :=
    takes_variableDeclaration exprContexts_all hn h hvalue hw
  have henum : Takes (fun _ => True) c x x
      (typed <&&> atKeyword .const <&&> nextIs (isName "enum")) (· = false) := by
    refine Takes.typed.andThen ?_
    cases c.dialect.types with
    | false => exact .pure rfl
    | true =>
      refine Takes.andThen (Takes.atKeyword hword _) ?_
      cases isKeyword .const (some (.keyword kind.keyword)) with
      | false => exact .pure rfl
      | true =>
        have hnext := Takes.nextIs (C := fun _ => True) (c := c) hword hname (isName "enum")
        rwa [isName_wordToken_enum hn] at hnext
  have hlet : Takes (fun _ => True) c x x (nextIs followsLet) (· = true) := by
    have hnext := Takes.nextIs (C := fun _ => True) (c := c) hword hname followsLet
    rwa [hn.token] at hnext
  have hstatement : Takes (fun _ => True) (moduleContext d) x y (statementOf g true)
      (variableTree kind n value).Is := by
    unfold statementOf asStatement
    refine .within id ((Takes.here hword).before fun start => (takes_someToken hword).andThen ?_)
    refine henum.andThen (.otherwise (.taken ?_))
    cases kind
    · have hnone : Takes (fun _ => True) c x x (blockVariables? g start) (· = none) :=
        (Takes.token? hword).andThen (.pure rfl)
      exact hnone.andThen hdeclaration
    · have hsome : Takes (fun _ => True) c x y (blockVariables? g start)
          fun found => ∃ t, found = some t ∧ (variableTree .let n value).Is t :=
        (Takes.token? hword).andThen (hlet.andThen (.taken
          (hdeclaration.bind fun t ht => .pure ⟨t, rfl, ht⟩)))
      refine hsome.bind ?_
      rintro _ ⟨t, rfl, ht⟩
      exact .pure ht
    · have hsome : Takes (fun _ => True) c x y (blockVariables? g start)
          fun found => ∃ t, found = some t ∧ (variableTree .const n value).Is t :=
        (Takes.token? hword).andThen (hdeclaration.bind fun t ht => .pure ⟨t, rfl, ht⟩)
      refine hsome.bind ?_
      rintro _ ⟨t, rfl, ht⟩
      exact .pure ht
  refine (Takes.atKeyword hword _).andThen ?_
  cases kind
  all_goals
    refine .otherwise ((Takes.atKeyword hword _).andThen (.otherwise ?_))
    exact (Takes.atKeyword hword _).andThen (.otherwise hstatement)

end Parse

theorem readsItem_variable {d : Dialect} {kind : VarKind} {n w x y z : Text} {value : Tree}
    (hn : Declarable n)
    (hx : Lexes x [.keyword kind.keyword, wordToken n, .mark (.assign .plain)] z)
    (hshorter : w.length ≤ z.length)
    (hvalue : ∀ n, 8 * z.length ≤ n → Parse.Takes (fun _ => True) (valueContext d) z w
      (Grammar.ofDepth n).assignment value.Is)
    (hw : Leads w (.mark .semicolon) y) : ReadsItem d x (variableTree kind n value) y := by
  have hfirst := hx.length_le
  have hlast := hw.length_lt
  refine ⟨⟨_, _, hx.choose_spec.1⟩, by omega, fun m hm => ?_⟩
  exact Parse.takes_variableItem hn hx (hvalue m (by omega)) hw

end InlineTemplates.Script
