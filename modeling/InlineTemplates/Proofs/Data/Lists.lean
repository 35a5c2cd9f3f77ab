import InlineTemplates.Proofs.Data.Operand

/-! # Lists in brackets

Arguments, elements of an array and properties of an object stand between brackets, with a comma
between two of them. If a rule reads each of them, the rule for the list reads all. -/

namespace InlineTemplates.Script

/-- The tokens of parts that follow another one, each with a comma before it. -/
def laterTokens : List (List Token) → List Token
  | [] => []
  | ts :: more => .mark .comma :: (ts ++ laterTokens more)

/-- The tokens of several parts, with commas between them. -/
def commaTokens : List (List Token) → List Token
  | [] => []
  | ts :: more => ts ++ laterTokens more

namespace Parse

variable {C : Context → Prop} {c : Context} {g : Grammar} {w x y z : Text} {t? : Option Token}

/-- The step reads the tokens as the tree, wherever they end. -/
structure Reads (C : Context → Prop) (step : Parse Tree) (tokens : List Token) (tree : Tree) :
    Prop where
  starts : ∃ t more, tokens = t :: more ∧ startsOperand t = true
  takes {c : Context} {x y : Text} {t? : Option Token} (h : Lexes x tokens y) (hy : Shows y t?)
    (hclose : t? ∈ closers) : Takes C c x y step tree.Is

theorem Reads.leads {step : Parse Tree} {tokens : List Token} {tree : Tree}
    (h : Reads C step tokens tree) (hx : Lexes x tokens y) :
    ∃ t w, Leads x t w ∧ startsOperand t = true := by
  obtain ⟨t, more, rfl, ht⟩ := h.starts
  obtain ⟨w, hw, -⟩ := hx
  exact ⟨t, w, hw, ht⟩

theorem isMark_of_mem_closers {m : Mark} (hm : some (.mark m) ∉ closers) (ht : t? ∈ closers) :
    isMark m t? = false := by
  cases t? with
  | none => rfl
  | some t =>
    cases t with
    | mark m' =>
      refine beq_eq_false_iff_ne.mpr ?_
      rintro rfl
      exact hm ht
    | _ => rfl

/-! ## Parts in a row -/

theorem length_le_laterTokens (parts : List (List Token)) :
    parts.length ≤ (laterTokens parts).length := by
  induction parts with
  | nil => exact Nat.zero_le _
  | cons ts more ih =>
    simp only [laterTokens, List.length_cons, List.length_append]
    omega

theorem length_le_of_lexes {step : Parse Tree} {parts : List (List Token)} {trees : List Tree}
    (h : List.Forall₂ (Reads C step) parts trees) (hx : Lexes x (commaTokens parts) y) :
    parts.length ≤ x.length := by
  have htokens : parts.length ≤ (commaTokens parts).length := by
    cases h with
    | nil => exact Nat.zero_le _
    | @cons ts tree more trees hfirst hmore =>
      obtain ⟨t, rest, rfl, -⟩ := hfirst.starts
      have hlater := length_le_laterTokens more
      simp only [commaTokens, List.length_cons, List.length_append]
      omega
  exact Nat.le_trans htokens (Nat.le_of_add_right_le hx.length_le)

theorem shows_later {parts : List (List Token)} (h : Lexes x (laterTokens parts) y)
    (hy : Shows y t?) (hclose : t? ∈ closers) : ∃ u?, Shows x u? ∧ u? ∈ closers := by
  cases parts with
  | nil =>
    obtain rfl := h
    exact ⟨t?, hy, hclose⟩
  | cons ts more =>
    obtain ⟨w, hw, -⟩ := h
    exact ⟨_, .of_leads hw, by simp [closers]⟩

/-! ## Arguments -/

theorem takes_spreadOrExpr {tokens : List Token} {tree : Tree}
    (h : Reads C g.assignment tokens tree) (hx : Lexes x tokens y) (hy : Shows y t?)
    (hclose : t? ∈ closers) : Takes C c x y (spreadOrExpr g) tree.Is := by
  obtain ⟨t, w, hw, ht⟩ := h.leads hx
  refine (Takes.here hw).before fun start => ?_
  refine (Takes.accept_other hw (isMark_of_startsOperand ht rfl)).andThen (.otherwise ?_)
  exact h.takes hx hy hclose

theorem Takes.withIn {α : Type} {step : Parse α} {P : α → Prop} (hC : ExprContexts C)
    (h : ∀ c, Takes C c x y step P) : Takes C c x y (Parse.withIn step) P :=
  .within hC.allowIn (h _)

theorem Takes.withoutColon {α : Type} {step : Parse α} {P : α → Prop} (hC : ExprContexts C)
    (h : ∀ c, Takes C c x y step P) : Takes C c x y (Parse.withoutColon step) P :=
  .within hC.colonAhead (h _)

/-- The next argument, or the end of the arguments. -/
def argumentStep (g : Grammar) (ofImport : Bool) (start : Nat) (acc : List Tree) :
    Parse (List Tree ⊕ List Tree) := do
  if (← atEnd) || (← at? .parenClose) then return .inr acc.reverse
  if !acc.isEmpty then
    expect .comma
    if ← at? .parenClose then
      if ofImport && !(← typed) then failAt (← spanFrom start) .trailingCommaInImport
      return .inr acc.reverse
  return .inl ((← withIn (spreadOrExpr g)) :: acc)

theorem arguments_eq (g : Grammar) (ofImport : Bool) : arguments g ofImport = withoutColon (do
    let start ← here
    expect .parenOpen
    let args ← iterate [] (argumentStep g ofImport start)
    expect .parenClose
    return args) := rfl

section
variable (hC : ExprContexts C) {parts : List (List Token)} {trees acc : List Tree}
  {tokens : List Token} {tree : Tree} {ofImport : Bool} {start : Nat}
include hC

theorem takes_argument (h : Reads C g.assignment tokens tree) (hx : Lexes x tokens y)
    (hmore : Lexes y (laterTokens parts) z) (hclose : Leads z (.mark .parenClose) w) :
    Takes C c x y (do return .inl ((← withIn (spreadOrExpr g)) :: acc))
      fun r : List Tree ⊕ List Tree => ∃ e, r = .inl (e :: acc) ∧ tree.Is e := by
  obtain ⟨t?, hy, hclosers⟩ := shows_later hmore (.of_leads hclose) (by simp [closers])
  refine (Takes.withIn hC fun c => takes_spreadOrExpr h hx hy hclosers).bind fun e he => ?_
  exact .pure ⟨e, rfl, he⟩

theorem takes_laterArguments (h : List.Forall₂ (Reads C g.assignment) parts trees)
    (hacc : acc ≠ []) (hx : Lexes x (laterTokens parts) y) (hclose : Leads y (.mark .parenClose) z)
    (n : Nat) :
    Takes C c x y (iterateUpTo (argumentStep g ofImport start) (n + parts.length + 1) acc)
      (·.map Tree.eraseSpans = acc.reverse.map Tree.eraseSpans ++ trees) := by
  induction h generalizing x acc with
  | nil =>
    obtain rfl := hx
    refine Takes.andThen (a := .inr acc.reverse) ?_ (.pure (List.append_nil _).symm)
    exact (Takes.atEnd hclose).andThen ((Takes.at? hclose _).andThen (.taken (.pure rfl)))
  | @cons ts tree more trees hfirst hmore ih =>
    obtain ⟨v, hcomma, hrest⟩ := hx
    obtain ⟨w, hw, hlater⟩ := lexes_append.mp hrest
    obtain ⟨t, u, hu, ht⟩ := hfirst.leads hw
    have hstep : Takes C c x w (argumentStep g ofImport start acc)
        fun r => ∃ e, r = .inl (e :: acc) ∧ tree.Is e := by
      refine (Takes.atEnd hcomma).andThen ((Takes.at? hcomma _).andThen (.otherwise ?_))
      rw [List.isEmpty_eq_false_iff.mpr hacc]
      refine .taken ((Takes.expect hcomma).before fun _ => (Takes.at? hu _).andThen ?_)
      rw [isMark_of_startsOperand ht rfl]
      exact .otherwise (takes_argument hC hfirst hw hlater hclose)
    refine hstep.bind ?_
    rintro _ ⟨e, rfl, he⟩
    refine (ih (List.cons_ne_nil e acc) hlater).mono fun found hfound => ?_
    rw [hfound, List.reverse_cons, List.map_append, List.append_assoc]
    exact congrArg _ (congrArg (· :: _) he)

theorem takes_arguments (h : List.Forall₂ (Reads C g.assignment) parts trees)
    (hx : Lexes x (.mark .parenOpen :: (commaTokens parts ++ [.mark .parenClose])) y) :
    Takes C c x y (arguments g ofImport) (·.map Tree.eraseSpans = trees) := by
  obtain ⟨x₁, hopen, hrest⟩ := hx
  obtain ⟨x₂, hparts, _, hclose, rfl⟩ := lexes_append.mp hrest
  rw [arguments_eq]
  refine Takes.withoutColon hC fun c => (Takes.here hopen).before fun start => ?_
  refine (Takes.expect hopen).before fun _ => Takes.bind (y := x₂) ?_ fun args hargs =>
    (Takes.expect hclose).before fun _ => .pure hargs
  refine Takes.iterate (length_le_of_lexes h hparts) fun n => ?_
  cases h with
  | nil =>
    obtain rfl := hparts
    refine Takes.andThen (a := .inr []) ?_ (.pure rfl)
    exact (Takes.atEnd hclose).andThen ((Takes.at? hclose _).andThen (.taken (.pure rfl)))
  | @cons ts tree more trees hfirst hmore =>
    obtain ⟨w, hw, hlater⟩ := lexes_append.mp hparts
    obtain ⟨t, u, hu, ht⟩ := hfirst.leads hw
    have hstep : Takes C c x₁ w (argumentStep g ofImport start [])
        fun r => ∃ e, r = .inl [e] ∧ tree.Is e := by
      refine (Takes.atEnd hu).andThen ((Takes.at? hu _).andThen ?_)
      rw [isMark_of_startsOperand ht rfl]
      exact .otherwise (.otherwise (takes_argument hC hfirst hw hlater hclose))
    refine hstep.bind ?_
    rintro _ ⟨e, rfl, he⟩
    refine (takes_laterArguments hC hmore (List.cons_ne_nil e []) hlater hclose n).mono ?_
    intro found hfound
    rw [hfound]
    exact congrArg (· :: trees) he

end

/-! ## Elements and properties -/

def elementStep (g : Grammar) (start : Nat) (acc : List Tree) : Parse (List Tree ⊕ List Tree) := do
  if ← at? .bracketClose then return .inr acc.reverse
  if ← accept .comma then return .inl (Tree.absent :: acc)
  let e ← withIn (spreadOrExpr g)
  if !(← at? .bracketClose) then
    expect .comma
    if ← at? .bracketClose then rememberComma start (← previous)
  return .inl (e :: acc)

theorem arrayLiteral_eq (g : Grammar) : arrayLiteral g = withoutColon (do
    let start ← here
    expect .bracketOpen
    let elements ← iterate [] (elementStep g start)
    expect .bracketClose
    return .expr .array (← spanFrom start) elements) := rfl

/-- The next part in braces, or the end of the parts. -/
def bracedStep (part : Parse Tree) :
    List Tree × Option Span → Parse (List Tree × Option Span ⊕ List Tree × Option Span) :=
  fun (acc, comma) => do
    if ← at? .braceClose then return .inr (acc.reverse, comma)
    let p ← part
    if ← at? .braceClose then return .inl (p :: acc, comma)
    expect .comma
    let comma ← if ← at? .braceClose then pure (some (← previous)) else pure comma
    return .inl (p :: acc, comma)

theorem braced_eq (part : Parse Tree) : braced part = (do
    expect .braceOpen
    let found ← iterate ([], none) (bracedStep part)
    expect .braceClose
    return found) := rfl

theorem lexes_later {parts : List (List Token)} (h : Lexes x (laterTokens parts) y) :
    parts = [] ∧ x = y ∨
      ∃ w, Leads x (.mark .comma) w ∧ parts ≠ [] ∧ Lexes w (commaTokens parts) y := by
  cases parts with
  | nil => exact .inl ⟨rfl, h⟩
  | cons ts more =>
    obtain ⟨w, hw, hrest⟩ := h
    exact .inr ⟨w, hw, List.cons_ne_nil _ _, hrest⟩

theorem leads_of_parts {step : Parse Tree} {parts : List (List Token)} {trees : List Tree}
    (h : List.Forall₂ (Reads C step) parts trees) (hne : parts ≠ [])
    (hx : Lexes x (commaTokens parts) y) : ∃ t w, Leads x t w ∧ startsOperand t = true := by
  cases h with
  | nil => exact absurd rfl hne
  | cons hfirst _ =>
    obtain ⟨w, hw, -⟩ := lexes_append.mp hx
    exact hfirst.leads hw

section
variable {parts : List (List Token)} {trees acc : List Tree}

theorem takes_elements (hC : ExprContexts C) {start : Nat}
    (h : List.Forall₂ (Reads C g.assignment) parts trees) (hx : Lexes x (commaTokens parts) y)
    (hclose : Leads y (.mark .bracketClose) z) (n : Nat) :
    Takes C c x y (iterateUpTo (elementStep g start) (n + parts.length + 1) acc)
      (·.map Tree.eraseSpans = acc.reverse.map Tree.eraseSpans ++ trees) := by
  induction h generalizing x acc with
  | nil =>
    obtain rfl := hx
    refine Takes.andThen (a := .inr acc.reverse) ?_ (.pure (List.append_nil _).symm)
    exact (Takes.at? hclose _).andThen (.taken (.pure rfl))
  | @cons ts tree more trees hfirst hmore ih =>
    obtain ⟨w, hw, hlater⟩ := lexes_append.mp hx
    obtain ⟨t, u, hu, ht⟩ := hfirst.leads hw
    obtain ⟨t?, hshown, hclosers⟩ := shows_later hlater (.of_leads hclose) (by simp [closers])
    have hmark : isMark .bracketClose (some t) = false := isMark_of_startsOperand ht rfl
    have hat : Takes C c x x (at? .bracketClose) (· = false) := hmark ▸ Takes.at? hu _
    have hnone : Takes C c x x (accept .comma) (· = false) :=
      Takes.accept_other hu (isMark_of_startsOperand ht rfl)
    have hread : Takes C c x w (withIn (spreadOrExpr g)) tree.Is :=
      Takes.withIn hC fun c => takes_spreadOrExpr hfirst hw hshown hclosers
    have hstep : ∃ v, Lexes v (commaTokens more) y ∧ Takes C c x v (elementStep g start acc)
        fun r => ∃ e, r = .inl (e :: acc) ∧ tree.Is e := by
      obtain ⟨rfl, rfl⟩ | ⟨v, hcomma, hne, hmoreParts⟩ := lexes_later hlater
      · refine ⟨w, rfl, hat.andThen (.otherwise (hnone.andThen (.otherwise ?_)))⟩
        refine hread.bind fun e he => ?_
        exact (Takes.at? hclose _).andThen (.otherwise (.pure ⟨e, rfl, he⟩))
      · obtain ⟨t', u', hu', ht'⟩ := leads_of_parts hmore hne hmoreParts
        refine ⟨v, hmoreParts, hat.andThen (.otherwise (hnone.andThen (.otherwise ?_)))⟩
        refine hread.bind fun e he => ?_
        refine (Takes.at? hcomma _).andThen (.taken ((Takes.expect hcomma).before fun _ => ?_))
        refine (Takes.at? hu' _).andThen ?_
        rw [isMark_of_startsOperand ht' rfl]
        exact .otherwise (.pure ⟨e, rfl, he⟩)
    obtain ⟨v, hv, hone⟩ := hstep
    refine hone.bind ?_
    rintro _ ⟨e, rfl, he⟩
    refine (ih hv).mono fun found hfound => ?_
    rw [hfound, List.reverse_cons, List.map_append, List.append_assoc]
    exact congrArg _ (congrArg (· :: _) he)

theorem takes_arrayLiteral (hC : ExprContexts C)
    (h : List.Forall₂ (Reads C g.assignment) parts trees)
    (hx : Lexes x (.mark .bracketOpen :: (commaTokens parts ++ [.mark .bracketClose])) y) :
    Takes C c x y (arrayLiteral g) (IsOperandOf (.expr .array .nowhere trees)) := by
  obtain ⟨x₁, hopen, hrest⟩ := hx
  obtain ⟨x₂, hparts, _, hclose, rfl⟩ := lexes_append.mp hrest
  rw [arrayLiteral_eq]
  refine Takes.withoutColon hC fun c => (Takes.here hopen).before fun start => ?_
  refine (Takes.expect hopen).before fun _ => Takes.bind (y := x₂)
    (.iterate (length_le_of_lexes h hparts) fun n => takes_elements hC h hparts hclose n) ?_
  intro elements helements
  refine (Takes.expect hclose).before fun _ => (Takes.spanFrom _).before fun span => ?_
  exact .pure ⟨.node helements, rfl⟩

theorem takes_bracedParts {part : Parse Tree} {comma : Option Span}
    (h : List.Forall₂ (Reads C part) parts trees) (hx : Lexes x (commaTokens parts) y)
    (hclose : Leads y (.mark .braceClose) z) (n : Nat) :
    Takes C c x y (iterateUpTo (bracedStep part) (n + parts.length + 1) (acc, comma))
      (·.1.map Tree.eraseSpans = acc.reverse.map Tree.eraseSpans ++ trees) := by
  induction h generalizing x acc with
  | nil =>
    obtain rfl := hx
    refine Takes.andThen (a := .inr (acc.reverse, comma)) ?_ (.pure (List.append_nil _).symm)
    exact (Takes.at? hclose _).andThen (.taken (.pure rfl))
  | @cons ts tree more trees hfirst hmore ih =>
    obtain ⟨w, hw, hlater⟩ := lexes_append.mp hx
    obtain ⟨t, u, hu, ht⟩ := hfirst.leads hw
    obtain ⟨t?, hshown, hclosers⟩ := shows_later hlater (.of_leads hclose) (by simp [closers])
    have hmark : isMark .braceClose (some t) = false := isMark_of_startsOperand ht rfl
    have hat : Takes C c x x (at? .braceClose) (· = false) := hmark ▸ Takes.at? hu _
    have hstep : ∃ v, Lexes v (commaTokens more) y ∧ Takes C c x v (bracedStep part (acc, comma))
        fun r => ∃ e, r = .inl (e :: acc, comma) ∧ tree.Is e := by
      obtain ⟨rfl, rfl⟩ | ⟨v, hcomma, hne, hmoreParts⟩ := lexes_later hlater
      · refine ⟨w, rfl, hat.andThen (.otherwise ?_)⟩
        refine (hfirst.takes hw hshown hclosers).bind fun e he => ?_
        exact (Takes.at? hclose _).andThen (.taken (.pure ⟨e, rfl, he⟩))
      · obtain ⟨t', u', hu', ht'⟩ := leads_of_parts hmore hne hmoreParts
        refine ⟨v, hmoreParts, hat.andThen (.otherwise ?_)⟩
        refine (hfirst.takes hw hshown hclosers).bind fun e he => ?_
        refine (Takes.at? hcomma _).andThen (.otherwise ((Takes.expect hcomma).before fun _ => ?_))
        refine (Takes.at? hu' _).andThen ?_
        rw [isMark_of_startsOperand ht' rfl]
        exact .otherwise (Takes.andThen (.pure rfl) (.pure ⟨e, rfl, he⟩))
    obtain ⟨v, hv, hone⟩ := hstep
    refine hone.bind ?_
    rintro _ ⟨e, rfl, he⟩
    refine (ih hv).mono fun found hfound => ?_
    rw [hfound, List.reverse_cons, List.map_append, List.append_assoc]
    exact congrArg _ (congrArg (· :: _) he)

theorem takes_braced {part : Parse Tree} (h : List.Forall₂ (Reads C part) parts trees)
    (hx : Lexes x (.mark .braceOpen :: (commaTokens parts ++ [.mark .braceClose])) y) :
    Takes C c x y (braced part) (·.1.map Tree.eraseSpans = trees) := by
  obtain ⟨x₁, hopen, hrest⟩ := hx
  obtain ⟨x₂, hparts, _, hclose, rfl⟩ := lexes_append.mp hrest
  rw [braced_eq]
  refine (Takes.expect hopen).before fun _ => Takes.bind (y := x₂)
    (.iterate (length_le_of_lexes h hparts) fun n => takes_bracedParts h hparts hclose n) ?_
  exact fun found hfound => (Takes.expect hclose).before fun _ => .pure hfound

end

end Parse
end InlineTemplates.Script
