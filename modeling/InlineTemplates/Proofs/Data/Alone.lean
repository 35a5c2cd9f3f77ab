import InlineTemplates.Proofs.Alone
import InlineTemplates.Proofs.Data.Reading
import InlineTemplates.Proofs.Lexing.Items
import InlineTemplates.Proofs.OpeningParen

/-! # Data by itself and in parentheses

Data is read up to the end of a source, and so are several data with commas between them. The
parentheses that a source opens with hold the same: to the parser they might be the parameters of an
arrow function, but data is no such thing. -/

namespace InlineTemplates.Script

open Parse (onSource runOn openingParts startOf AtSourceEnd wholeExpression aloneContext)

/-- What expressions with commas between them are, wherever they stand. -/
def sequenceOf : List Tree → Tree
  | [e] => e
  | es => .expr .sequence .nowhere es

theorem exists_commaJoined {parts trees : List Tree} (h : parts.map Tree.eraseSpans = trees)
    (hne : trees ≠ []) :
    ∃ inner, commaJoined parts = some inner ∧ inner.eraseSpans = sequenceOf trees := by
  subst h
  cases parts with
  | nil => exact absurd rfl hne
  | cons first more =>
    cases more with
    | nil => exact ⟨first, rfl, rfl⟩
    | cons second more => exact ⟨_, rfl, Tree.eraseSpans_node ..⟩

namespace Parse

variable {C : Context → Prop} {c : Context} {g : Grammar} {x y z : Text} {t? : Option Token}
  {parts : List (List Token)} {trees acc : List Tree} {n : Nat} {errors : List SyntaxError}
  {s : ParseState}

/-! ## Sequences -/

def laterExpression? (g : Grammar) : Parse (Option Tree) := do
  if ← accept .comma then return some (← g.assignment)
  return none

theorem sequenceExpr_eq (g : Grammar) : sequenceExpr g = (do
    let first ← g.assignment
    if !(← at? .comma) then return first
    let more ← collect (laterExpression? g)
    return .expr .sequence (← spanFrom first.span.lo) (first :: more)) := rfl

section
variable (hy : Shows y t?) (hclose : t? ∈ closers) (hcomma : isMark .comma t? = false)
include hy hclose hcomma

theorem takes_laterSteps (h : List.Forall₂ (Reads C g.assignment) parts trees)
    (hx : Lexes x (laterTokens parts) y) (n : Nat) :
    Takes C c x y (iterateUpTo (collectStep (laterExpression? g)) (n + parts.length + 1) acc)
      (·.map Tree.eraseSpans = trees.reverse ++ acc.map Tree.eraseSpans) := by
  induction h generalizing x acc with
  | nil =>
    obtain rfl := hx
    have hnone : Takes C c x x (laterExpression? g) (· = none) :=
      (hy.accept_other hcomma).andThen (.otherwise (.pure rfl))
    exact Takes.andThen (a := .inr acc) (hnone.andThen (.pure rfl)) (.pure rfl)
  | @cons ts tree more trees hfirst hmore ih =>
    obtain ⟨w, hw, hrest⟩ := hx
    obtain ⟨z, hts, hlater⟩ := lexes_append.mp hrest
    obtain ⟨u?, hz, hu⟩ := shows_later hlater hy hclose
    have hone : Takes C c x z (laterExpression? g) fun found => ∃ e, found = some e ∧ tree.Is e :=
      (Takes.accept hw).andThen (.taken ((hfirst.takes hts hz hu).bind fun e he => .pure ⟨e, rfl, he⟩))
    have hstep : Takes C c x z (collectStep (laterExpression? g) acc)
        fun r => ∃ e, r = .inl (e :: acc) ∧ tree.Is e := by
      refine hone.bind ?_
      rintro _ ⟨e, rfl, he⟩
      exact .pure ⟨e, rfl, he⟩
    refine hstep.bind ?_
    rintro _ ⟨e, rfl, he⟩
    refine (ih hlater).mono fun found hfound => ?_
    rw [hfound, List.reverse_cons, List.append_assoc, List.map_cons, he]
    rfl

theorem takes_sequenceExpr (h : List.Forall₂ (Reads C g.assignment) parts trees) (hne : parts ≠ [])
    (hx : Lexes x (commaTokens parts) y) :
    Takes C c x y (sequenceExpr g) (sequenceOf trees).Is := by
  cases h with
  | nil => exact absurd rfl hne
  | @cons ts tree more trees hfirst hmore =>
    obtain ⟨z, hts, hlater⟩ := lexes_append.mp hx
    obtain ⟨u?, hz, hu⟩ := shows_later hlater hy hclose
    rw [sequenceExpr_eq]
    refine (hfirst.takes hts hz hu).bind fun first he => ?_
    cases hmore with
    | nil =>
      obtain rfl := hlater
      have hat := hy.at? (C := C) (c := c) .comma
      rw [hcomma] at hat
      exact hat.andThen (.taken (.pure he))
    | @cons ts' tree' more trees' hsecond hmore =>
      obtain ⟨w, hw, -⟩ := id hlater
      have hforall := List.Forall₂.cons hsecond hmore
      refine (Takes.at? hw _).andThen (.otherwise ?_)
      rw [collect_eq]
      have hlength := length_le_laterTokens (ts' :: more)
      have htext := hlater.length_le
      refine Takes.bind (P := fun found => found.map Tree.eraseSpans = tree' :: trees')
        (Takes.bind (.iterate (k := (ts' :: more).length) (by omega)
          fun n => takes_laterSteps hy hclose hcomma hforall hlater n) fun found hfound =>
            .pure (by simp [hfound])) fun found hfound => ?_
      refine (Takes.spanFrom _).before fun span => .pure (.node ?_)
      rw [List.map_cons, he, hfound]

end

/-! ## In parentheses -/

/-- What follows a part in parentheses: the end, or a comma. -/
def behindPart (acc : List Tree) (comma : Option Span) :
    Parse (List Tree × Option Span ⊕ List Tree × Option Span) := do
  if ← at? .parenClose then return .inl (acc, comma)
  expect .comma
  let comma ← if ← at? .parenClose then pure (some (← previous)) else pure comma
  return .inl (acc, comma)

/-- The next part in parentheses, or the end of the parts. -/
def parenStep (g : Grammar) :
    List Tree × Option Span → Parse (List Tree × Option Span ⊕ List Tree × Option Span) :=
  fun (acc, comma) => do
    if (← atEnd) || (← at? .parenClose) then return .inr (acc.reverse, comma)
    let async ← atName "async" <&&> nextIs fun t =>
      isMark .parenOpen t || isKeyword .function t || isWord t
    let start ← here
    modify fun s => { s with arrowStart := some start }
    let modified ← anyModifier
    let patStart ← here
    let named ← typed <&&>
      (atFreeWord <||> (at? .ellipsis <&&> nextAtFreeWord))
    let part ← if named then namedPart g start else withIn (spreadOrExpr g)
    let optional ← optionalMark? part
    let part ← if !optional && part.isExpr then
        if ← typed <&&> accept .question then conditionalRest g start part else pure part
      else pure part
    let part ← if optional || ((← typed) && (← at? .colon)) then typedPart g patStart part optional
      else pure part
    if modified then note (← spanFrom start) .parameterProperty
    let acc := part :: acc
    let acc ← if ← accept .arrow then parenParts.arrowAfterName g start async acc else pure acc
    behindPart acc comma

theorem parenParts_eq (g : Grammar) : parenParts g = (do
    expect .parenOpen
    let found ← iterate ([], none) (parenStep g)
    expect .parenClose
    return found) := rfl

section
variable {ts : List Token} {tree : Tree} {w : Text} {acc : List Tree} {comma : Option Span}
  (hC : ExprContexts C) (hc : c.dialect = .plain)
include hC hc

theorem takes_parenStep {P : List Tree × Option Span ⊕ List Tree × Option Span → Prop}
    (h : Reads C g.assignment ts tree) (hx : Lexes x ts w) (hw : Shows w t?) (hclose : t? ∈ closers)
    (hrest : ∀ e, tree.Is e → Takes C c w y (behindPart (e :: acc) comma) P) :
    Takes C c x y (parenStep g (acc, comma)) P := by
  obtain ⟨t, u, hu, ht⟩ := h.leads hx
  have htyped {x : Text} : Takes C c x x typed (· = false) := by
    have htypes : c.dialect.types = false := by rw [hc]; rfl
    exact htypes ▸ Takes.typed
  have hasync : isName "async" (some t) = false := by
    cases t with
    | name n plain =>
      have hne : n ≠ text "async" := by simpa [startsOperand] using ht
      simp [isName, hne]
    | _ => rfl
  have hmodifier : Takes C c x x anyModifier (· = false) := htyped.andThen (.taken (.pure rfl))
  have hpart : Takes C c x w (withIn (spreadOrExpr g)) tree.Is :=
    Takes.withIn hC fun c => takes_spreadOrExpr h hx hw hclose
  refine (Takes.atEnd hu).andThen ((Takes.at? hu _).andThen ?_)
  rw [isMark_of_startsOperand ht rfl]
  have hat := Takes.atName (C := C) (c := c) hu "async"
  rw [hasync] at hat
  refine .otherwise (Takes.andThen hat.and_of_false ((Takes.here hu).before fun start => ?_))
  refine Takes.before (Takes.modify (fun _ => rfl) (fun _ => rfl) fun _ => rfl) fun _ => ?_
  refine hmodifier.andThen ((Takes.here hu).before fun _ => ?_)
  refine Takes.andThen htyped.and_of_false (hpart.bind fun e he => ?_)
  have hoptional : Takes C c w w (optionalMark? e) (· = false) :=
    htyped.andThen ((hw.at? _).andThen (.taken (.pure rfl)))
  refine hoptional.andThen ?_
  extract_lets last typedPart rest
  have hbehind : Takes C c w y (rest e) P := by
    refine htyped.andThen ((hw.at? _).andThen ?_)
    refine .otherwise (Takes.andThen (.pure rfl) (.otherwise ?_))
    refine (hw.accept_other (isMark_of_mem_closers (by simp [closers]) hclose)).andThen ?_
    exact .otherwise (Takes.andThen (.pure rfl) (hrest e he))
  cases hexpr : e.isExpr with
  | true =>
    refine .taken (Takes.andThen htyped.and_of_false (.otherwise ?_))
    exact Takes.andThen (.pure rfl) hbehind
  | false => exact .otherwise (Takes.andThen (.pure rfl) hbehind)

theorem takes_parenSteps (h : List.Forall₂ (Reads C g.assignment) parts trees)
    (hx : Lexes x (commaTokens parts) y) (hclose : Leads y (.mark .parenClose) z) (n : Nat) :
    Takes C c x y (iterateUpTo (parenStep g) (n + parts.length + 1) (acc, comma))
      (·.1.map Tree.eraseSpans = acc.reverse.map Tree.eraseSpans ++ trees) := by
  induction h generalizing x acc with
  | nil =>
    obtain rfl := hx
    refine Takes.andThen (a := .inr (acc.reverse, comma)) ?_ (.pure (List.append_nil _).symm)
    exact (Takes.atEnd hclose).andThen ((Takes.at? hclose _).andThen (.taken (.pure rfl)))
  | @cons ts tree more trees hfirst hmore ih =>
    obtain ⟨w, hw, hlater⟩ := lexes_append.mp hx
    obtain ⟨t?, hshown, hclosers⟩ := shows_later hlater (.of_leads hclose) (by simp [closers])
    have hstep : ∃ v, Lexes v (commaTokens more) y ∧ Takes C c x v (parenStep g (acc, comma))
        fun r => ∃ e, r = .inl (e :: acc, comma) ∧ tree.Is e := by
      obtain ⟨rfl, rfl⟩ | ⟨v, hcomma, hne, hmoreParts⟩ := lexes_later hlater
      · refine ⟨w, rfl, takes_parenStep hC hc hfirst hw hshown hclosers fun e he => ?_⟩
        exact (Takes.at? hclose _).andThen (.taken (.pure ⟨e, rfl, he⟩))
      · obtain ⟨t', u', hu', ht'⟩ := leads_of_parts hmore hne hmoreParts
        refine ⟨v, hmoreParts, takes_parenStep hC hc hfirst hw hshown hclosers fun e he => ?_⟩
        refine (Takes.at? hcomma _).andThen (.otherwise ((Takes.expect hcomma).before fun _ => ?_))
        refine (Takes.at? hu' _).andThen ?_
        rw [isMark_of_startsOperand ht' rfl]
        exact .otherwise (Takes.andThen (.pure rfl) (.pure ⟨e, rfl, he⟩))
    obtain ⟨v, hv, hone⟩ := hstep
    refine hone.bind ?_
    rintro _ ⟨e, rfl, he⟩
    refine (ih hv).mono fun found hfound => ?_
    rw [hfound, List.reverse_cons, List.map_append, List.append_assoc]
    exact congrArg _ (congrArg (· :: _) he)

theorem runOn_parenParts_last (hin : C c) (h : List.Forall₂ (Reads C g.assignment) parts trees)
    (hx : Lexes x (.mark .parenOpen :: (commaTokens parts ++ [.mark .parenClose])) [])
    (hs : Faces C x n errors s) :
    ∃ found s' lo, runOn (parenParts g) c s = (.ok found, s') ∧
      found.1.map Tree.eraseSpans = trees ∧ AtSourceEnd ⟨lo, n + 1⟩ errors s' := by
  obtain ⟨x₁, hopen, hrest⟩ := hx
  obtain ⟨x₂, hparts, _, hclose, rfl⟩ := lexes_append.mp hrest
  obtain ⟨_, s₁, hexpect, -, hs₁⟩ := Takes.expect hopen hin n errors s hs
  have hsteps : Takes C c x₁ x₂ (iterate ([], none) (parenStep g)) (·.1.map Tree.eraseSpans = trees) :=
    .iterate (length_le_of_lexes h hparts) fun n => takes_parenSteps hC hc h hparts hclose n
  obtain ⟨found, s₂, hiterate, hfound, hs₂⟩ := hsteps hin n errors s₁ hs₁
  obtain ⟨lo, s₃, hlast, hend⟩ := runOn_expect_last hin hs₂ hclose
  refine ⟨found, s₃, lo, ?_, hfound, hend⟩
  rw [parenParts_eq]
  exact runOn_then hexpect (runOn_then hiterate (runOn_then hlast rfl))

end

end Parse

/-! ## Data -/

variable {ds : List Datum} {x y : Text} {t : Tree}

namespace Datum

theorem kind_membersOf_ne {k : ExprKind} (hk : k ≠ .member) {obj : Tree} (h : obj.kind ≠ .expr k)
    (members : List Text) : (Parse.membersOf obj members).kind ≠ .expr k := by
  induction members generalizing obj with
  | nil => exact h
  | cons m members ih => exact ih fun hkind => hk (Kind.expr.inj hkind).symm

theorem object_of_kind {d : Datum} (h : d.tree.kind = .expr .object) :
    ∃ entries, d = .object entries := by
  cases d with
  | object entries => exact ⟨entries, rfl⟩
  | dotted n members =>
    exact absurd h (kind_membersOf_ne (k := .object) (by simp) (by simp [Tree.kind, Tree.expr]) _)
  | _ => cases h

theorem kind_tree_ne_sequence (d : Datum) : d.tree.kind ≠ .expr .sequence := by
  intro h
  cases d with
  | dotted n members =>
    exact kind_membersOf_ne (k := .sequence) (by simp) (by simp [Tree.kind, Tree.expr]) _ h
  | _ => cases h

theorem kind_of_mem_treesOfEntries {entries : List (Text × Text × Datum)}
    (h : t ∈ treesOfEntries entries) : t.kind = .prop .keyValue := by
  induction entries with
  | nil => cases h
  | cons entry more ih =>
    cases h with
    | head => rfl
    | tail _ h => exact ih h

theorem standsInParens {d : Datum} (h : d.tree.Is t) : t.StandsInParens ∧ t.NoDefaults := by
  have hkind : d.tree.kind = t.kind := by rw [← h, Tree.kind_eraseSpans]
  have hexpr : t.isExpr = true := by
    rw [← d.isExpr_tree, Tree.isExpr, Tree.isExpr, hkind]
  refine ⟨⟨?_, ?_⟩, fun hobject property hproperty hassign => ?_⟩
  · intro hspread
    rw [Tree.isExpr, hspread] at hexpr
    cases hexpr
  · unfold isPattern
    split
    · next hpattern =>
      rw [Tree.isExpr, hpattern] at hexpr
      cases hexpr
    · rfl
  · obtain ⟨entries, rfl⟩ := object_of_kind (hkind.trans hobject)
    obtain ⟨span, parts, rfl, hparts⟩ := h.node_inv
    have hmem : property.eraseSpans ∈ treesOfEntries entries := hparts ▸ List.mem_map_of_mem hproperty
    have hkeyValue := kind_of_mem_treesOfEntries hmem
    rw [Tree.kind_eraseSpans, hassign] at hkeyValue
    cases hkeyValue

theorem trees_ne_nil (h : ds ≠ []) : trees ds ≠ [] := by
  cases ds with
  | nil => exact absurd rfl h
  | cons d ds => exact List.cons_ne_nil _ _

theorem exists_of_mem_trees (h : t ∈ trees ds) : ∃ d ∈ ds, t = d.tree := by
  induction ds with
  | nil => cases h
  | cons d ds ih =>
    cases h with
    | head => exact ⟨d, List.mem_cons_self, rfl⟩
    | tail _ h =>
      obtain ⟨other, hmem, heq⟩ := ih h
      exact ⟨other, List.mem_cons_of_mem _ hmem, heq⟩

end Datum

/-- What the rule for an expression without commas reads is the one expression of a source with
nothing else, and so are several with commas between them. -/
theorem readAlone?_of_reads {C : Context → Prop} {parts : List (List Token)} {trees : List Tree}
    (hin : C aloneContext) (hne : parts ≠ [])
    (hreads : List.Forall₂ (Parse.Reads C (Parse.assignmentExpr (.ofDepth (8 * x.length + 14))))
      parts trees)
    (h : Lexes x (commaTokens parts) y) (hy : LastGap y) :
    readAlone? x = some (sequenceOf trees) := by
  have hsequence := Parse.takes_sequenceExpr (c := aloneContext)
    (g := .ofDepth (8 * x.length + 15)) (show Parse.Shows y none from hy) (by simp [closers]) rfl
    hreads hne h
  obtain ⟨e, s₁, hexpr, he, hs₁⟩ := hsequence hin _ _ _ (Parse.faces_startOf x)
  have hexpression : runOn Parse.expression aloneContext (startOf x) = (.ok e, s₁) := by
    rw [Parse.runOn_expression]
    exact hexpr
  obtain ⟨_, s₂, hended, rfl, hs₂⟩ := Parse.Takes.token?_end hy hin _ _ _ hs₁
  have hwhole : runOn wholeExpression aloneContext (startOf x) = (.ok e, s₂) :=
    Parse.runOn_then hexpression (Parse.runOn_then (Parse.runOn_then hended rfl) rfl)
  rw [readAlone?_of_runOn hwhole hs₂.at_end.1 hs₂.at_end.2, he]

/-- Data up to the end of a source is the one expression of the source, and so is a sequence of
data. -/
theorem readAlone?_of_lexes (hne : ds ≠ []) (hlegal : Datum.AllLegal ds)
    (h : Lexes x (commaTokens (Datum.tokensOfAll ds)) y) (hy : LastGap y) :
    readAlone? x = some (sequenceOf (Datum.trees ds)) := by
  have hfits := Datum.depthOfAll_le_length ds
  have hlength := h.length_le
  have hparts : Datum.tokensOfAll ds ≠ [] := by
    cases ds with
    | nil => exact absurd rfl hne
    | cons d ds => exact List.cons_ne_nil _ _
  exact readAlone?_of_reads (C := fun _ => True) trivial hparts
    (Parse.reads_data Parse.exprContexts_all ds hlegal _ (by omega)) h hy

/-- In the parentheses that a source opens with and ends with, data is read as it is. -/
theorem runOn_openingParts_of_lexes (hlegal : Datum.AllLegal ds)
    (h : Lexes x (.mark .parenOpen :: (commaTokens (Datum.tokensOfAll ds) ++ [.mark .parenClose])) []) :
    ∃ found s' lo, runOn (openingParts x) { dialect := .plain } (startOf x) = (.ok found, s') ∧
      found.1.map Tree.eraseSpans = Datum.trees ds ∧ AtSourceEnd ⟨lo, x.length + 1⟩ [] s' := by
  obtain ⟨m, hdepth⟩ : ∃ m, Grammar.depthOf x - 4 = m + 1 := ⟨8 * x.length + 11, rfl⟩
  have hfits := Datum.depthOfAll_le_length ds
  have hlength := h.length_le
  simp only [List.length_cons, List.length_append, List.length_nil] at hlength
  rw [Grammar.depthOf] at hdepth
  have hreads := Parse.reads_data (C := fun _ => True) Parse.exprContexts_all ds hlegal m (by omega)
  obtain ⟨v, hopen, -⟩ := id h
  have hstart := Parse.Takes.here (C := fun _ => True) (c := { dialect := .plain }) hopen
  obtain ⟨start, s₁, hhere, -, hs₁⟩ := hstart trivial _ _ _ (Parse.faces_startOf x)
  have hmodify := Parse.Takes.modify (C := fun _ => True) (c := { dialect := .plain }) (x := x)
    (f := fun s => { s with arrowStart := some start }) (fun _ => rfl) (fun _ => rfl) fun _ => rfl
  obtain ⟨_, s₂, hmodified, -, hs₂⟩ := hmodify trivial _ _ _ hs₁
  obtain ⟨found, s₃, lo, hparts, hfound, hend⟩ := Parse.runOn_parenParts_last
    (c := { dialect := .plain, longAngles := true, allowIn := true, colonAhead := false })
    (g := .ofDepth (m + 1)) Parse.exprContexts_all rfl trivial hreads h hs₂
  refine ⟨found, s₃, lo, ?_, hfound, hend⟩
  refine Parse.runOn_then hhere (Parse.runOn_then hmodified ?_)
  rw [Grammar.depthOf, hdepth]
  exact hparts

end InlineTemplates.Script
