import InlineTemplates.Proofs.Data.Alone
import InlineTemplates.Proofs.Host.Argument

/-! # Data that keeps its parentheses

Several data in parentheses of their own are one operand where there are no types, so they are one
argument of a call. -/

namespace InlineTemplates.Script

open Doc (Spells)
open Parse (assignmentExpr reads_data reads_call)

/-- The tokens of parts in parentheses, with commas between them. -/
def parenTokens (parts : List (List Token)) : List Token :=
  .mark .parenOpen :: (commaTokens parts ++ [.mark .parenClose])

def parenTree (trees : List Tree) : Tree := .expr .paren .nowhere [sequenceOf trees]

/-- Data in parentheses, or several data with commas between them. -/
def Tree.IsEnclosedData (t : Tree) : Prop :=
  ∃ ds : List Datum, ds ≠ [] ∧ Datum.AllLegal ds ∧ (parenTree (Datum.trees ds)).Is t

/-- Data, alone or in parentheses. -/
def Tree.IsOperandData (t : Tree) : Prop := t.IsData ∨ t.IsEnclosedData

namespace Parse

variable {C : Context → Prop} {c : Context} {g : Grammar} {x y : Text} {t? : Option Token}
  {parts : List (List Token)} {trees : List Tree}

/-! ## In reading -/

theorem Takes.forIn {α : Type} {xs : List α} {f : α → PUnit → Parse (ForInStep PUnit)}
    (h : ∀ a ∈ xs, Takes C c x x (f a ⟨⟩) (· = .yield ⟨⟩)) :
    Takes C c x x (ForIn.forIn xs PUnit.unit f) fun _ => True := by
  induction xs with
  | nil => exact .pure trivial
  | cons a xs ih =>
    rw [List.forIn_cons]
    exact (h a List.mem_cons_self).andThen (ih fun b hb => h b (List.mem_cons_of_mem _ hb))

section
variable (hc : c.dialect = .plain) (hy : Shows y t?)
include hc hy

theorem takes_conditionalArrow? {start : Nat} {async : Bool} {found : List Tree} :
    Takes C c y y (conditionalArrow? g start async found) (· = none) := by
  refine Takes.context.andThen ((hy.at? _).andThen ?_)
  have hplain (b b' : Bool) : (!c.dialect.types || b || b') = true := by
    rw [hc]
    rfl
  rw [hplain]
  exact .taken (.pure rfl)

theorem takes_arrowReturnType? : Takes C c y y (arrowReturnType? g) (· = none) := by
  refine Takes.context.andThen ((hy.at? _).andThen ?_)
  have hplain (b b' : Bool) : (b || !c.dialect.types || b') = true := by
    rw [hc]
    simp [Dialect.plain]
  rw [hplain]
  exact .taken (.pure rfl)

end

theorem takes_parenOrArrow (hC : ExprContexts C) (hc : c.dialect = .plain) {canBeArrow : Bool}
    (h : List.Forall₂ (Reads C g.assignment) parts trees) (hne : trees ≠ [])
    (hparens : ∀ tree ∈ trees, ∀ e, tree.Is e → e.StandsInParens ∧ e.NoDefaults)
    (hx : Lexes x (parenTokens parts) y) (hy : Shows y t?) (hclose : t? ∈ closers) :
    Takes C c x y (parenOrArrow g canBeArrow none) (IsOperandOf (parenTree trees)) := by
  obtain ⟨x₁, hopen, hrest⟩ := hx
  obtain ⟨x₂, hparts, z, hparenClose, rfl⟩ := lexes_append.mp hrest
  refine (Takes.here hopen).before fun start => ?_
  have hsteps (c : Context) (hc : c.dialect = .plain) :
      Takes C c x z (parenParts g) (·.1.map Tree.eraseSpans = trees) := by
    rw [parenParts_eq]
    refine (Takes.expect hopen).before fun _ => ?_
    refine Takes.bind (.iterate (length_le_of_lexes h hparts) fun n =>
      takes_parenSteps hC hc h hparts hparenClose n) fun found hfound => ?_
    exact (Takes.expect hparenClose).before fun _ => .pure hfound
  have hfound : Takes C c x z (withIn (withoutColon (parenParts g)))
      (·.1.map Tree.eraseSpans = trees) := .within hC.allowIn (.within hC.colonAhead (hsteps _ hc))
  refine hfound.bind ?_
  rintro ⟨found, comma⟩ hfound
  have hall : ∀ p ∈ found, p.StandsInParens ∧ p.NoDefaults := fun p hp =>
    hparens _ (hfound ▸ List.mem_map_of_mem hp) p rfl
  have hpattern : found.any isPattern = false := by
    simpa using fun p hp => (hall p hp).1.2
  have hspread : found.find? (·.kind == .part .spread) = none := by
    simpa using fun p hp => (hall p hp).1.1
  refine (takes_conditionalArrow? hc hy).andThen ((takes_arrowReturnType? hc hy).andThen ?_)
  refine (hy.at? _).andThen ?_
  dsimp only
  rw [hpattern, isMark_of_mem_closers (by simp [closers]) hclose]
  refine .otherwise (Takes.before (Takes.forIn fun p hp => ?_) fun _ => ?_)
  · have hsame : (if (p.kind == .part .spread) = true then p.part 0 else p) = p :=
      if_neg (by simpa using (hall p hp).1.1)
    rw [hsame]
    split
    · next hobject =>
      refine Takes.before (Takes.forIn fun property hproperty => ?_) fun _ => .pure rfl
      rw [if_neg (by simpa using (hall p hp).2 (by simpa using hobject) property hproperty)]
      exact .pure rfl
    · exact .pure rfl
  · rw [hspread]
    have hmade (span : Span) {inner : Tree} (h : (sequenceOf trees).Is inner) :
        IsOperandOf (parenTree trees) (.expr .paren span [inner]) :=
      ⟨.node (congrArg (fun t => [t]) h), rfl⟩
    subst hfound
    cases found with
    | nil => exact absurd rfl hne
    | cons first more =>
      cases more with
      | nil => exact (Takes.spanFrom _).before fun span => .pure (hmade span rfl)
      | cons second more =>
        exact (Takes.spanFrom _).before fun span => .pure (hmade span (.node rfl))

/-- Where there are no types, data in parentheses is read as one operand. -/
theorem reads_parens {C : Context → Prop} (hC : ExprContexts C)
    (hplain : ∀ c, C c → c.dialect = .plain) {ds : List Datum} (hne : ds ≠ [])
    (hlegal : Datum.AllLegal ds) {n : Nat} (hn : 3 * Datum.depthOfAll ds + 3 ≤ n) :
    Reads C (assignmentExpr (.ofDepth n)) (parenTokens (Datum.tokensOfAll ds))
      (parenTree (Datum.trees ds)) where
  starts := ⟨_, _, rfl, rfl⟩
  takes {c x y t?} hx hy hclose := by
    obtain ⟨k, rfl⟩ : ∃ k, n = k + 3 := ⟨n - 3, by omega⟩
    obtain ⟨w, hopen, -⟩ := id hx
    have hreads := reads_data hC ds hlegal k (by omega)
    have hparens : ∀ tree ∈ Datum.trees ds, ∀ e, tree.Is e → e.StandsInParens ∧ e.NoDefaults := by
      intro tree htree e he
      obtain ⟨d, -, rfl⟩ := Datum.exists_of_mem_trees htree
      exact Datum.standsInParens he
    have hprimary (c : Context) :
        Takes C c x y (primary (.ofDepth (k + 1))) (IsOperandOf (parenTree (Datum.trees ds))) := by
      intro hin
      have hread (canBeArrow : Bool) :
          Takes C c x y (parenOrArrow (.ofDepth (k + 1)) canBeArrow none)
            (IsOperandOf (parenTree (Datum.trees ds))) :=
        takes_parenOrArrow hC (hplain c hin) hreads (Datum.trees_ne_nil hne) hparens hx hy hclose
      exact takes_primary_bracket hopen (.inr (.inr ⟨rfl, hread⟩)) hin
    have hnone : Lexes y (memberTokens []) y := rfl
    exact (takes_assignment_members hC hopen rfl hprimary hnone hy hclose).mono fun _ he => he.1

end Parse

/-! ## In print -/

section
variable {s : Style} (hs : s.dense = false) {ds : List Datum} (hne : ds ≠ [])
  (hlegal : Datum.AllLegal ds)
include hs hne hlegal

theorem spells_sequenceOf {t : Tree} (ht : (sequenceOf (Datum.trees ds)).Is t) :
    Spells endsWord (s.print t).code (commaTokens (Datum.tokensOfAll ds)) := by
  cases ds with
  | nil => exact absurd rfl hne
  | cons d more =>
    cases more with
    | nil =>
      have hone : commaTokens (Datum.tokensOfAll [d]) = d.tokens := List.append_nil _
      exact hone ▸ spells_datum hs d t hlegal.1 ht
    | cons d' more =>
      obtain ⟨span, es, rfl, hes⟩ := Tree.Is.node_inv ht
      have hparts := Datum.tokensOfAll_ne_nil (d :: d' :: more)
      have hfirst : commaTokens (Datum.tokensOfAll (d :: d' :: more)) ≠ [] := by
        simp [commaTokens, Datum.tokensOfAll, d.tokens_ne_nil]
      refine Doc.spells_before _ (spells_commas (isGap_gap s) hparts ?_) hfirst
      rw [Style.printAll_eq_map, List.map_map, List.forall₂_map_left_iff]
      exact (spells_data hs _ es hlegal hes).imp fun t ts ht => ht.comments _ _ _

theorem spells_parens {t : Tree} (ht : (parenTree (Datum.trees ds)).Is t) :
    Spells endsWord (s.print t).code (parenTokens (Datum.tokensOfAll ds)) := by
  obtain ⟨span, parts, rfl, hparts⟩ := Tree.Is.node_inv ht
  obtain ⟨inner, rest, rfl, hinner, hrest⟩ := List.map_eq_cons_iff.mp hparts
  obtain rfl := List.map_eq_nil_iff.mp hrest
  have hcode : (s.print (.node (.expr .paren) span [inner])).code =
      Doc.before span.lo ++ (lit "(" ++ (s.print inner).whole ++ lit ")") := rfl
  have hwhole : Spells endsWord (s.print inner).whole (commaTokens (Datum.tokensOfAll ds)) :=
    (spells_sequenceOf hs hne hlegal hinner).comments _ _ _
  rw [hcode]
  refine Doc.spells_before _ (spells_brackets rfl rfl (by decide) ?_) (List.cons_ne_nil _ _)
  exact ⟨[], _, [], by simp, Doc.isGap_nil, Doc.isGap_nil, hwhole⟩

end

/-! ## As one argument -/

/-- Where there are no types the tree is read from these tokens, and it is printed as them. -/
structure ReadAsPrinted (tree : Tree) (tokens : List Token) : Prop where
  reads {n : Nat} : 8 * tokens.length ≤ n →
    Parse.Reads (·.dialect = .plain) (assignmentExpr (.ofDepth n)) tokens tree
  spells {s : Style} {t : Tree} : s.dense = false → tree.Is t →
    Spells endsWord (s.print t).code tokens

theorem exprContexts_plain : Parse.ExprContexts (·.dialect = .plain) := ⟨id, id, id, id⟩

theorem Tree.IsData.readAsPrinted {e : Tree} (h : e.IsData) :
    ∃ tokens, ReadAsPrinted e.eraseSpans tokens := by
  obtain ⟨datum, hlegal, he⟩ := h
  have hfits := datum.depth_le_length
  rw [he]
  exact ⟨datum.tokens, fun hn => Parse.reads_datum exprContexts_plain datum hlegal _ (by omega),
    fun hs ht => spells_datum hs datum _ hlegal ht⟩

theorem Tree.IsEnclosedData.readAsPrinted {e : Tree} (h : e.IsEnclosedData) :
    ∃ tokens, ReadAsPrinted e.eraseSpans tokens := by
  obtain ⟨ds, hne, hlegal, he⟩ := h
  have hfits := Datum.depthOfAll_le_length ds
  rw [he]
  refine ⟨parenTokens (Datum.tokensOfAll ds), fun hn => ?_,
    fun hs ht => spells_parens hs hne hlegal ht⟩
  simp only [parenTokens, List.length_cons, List.length_append, List.length_nil] at hn
  exact Parse.reads_parens exprContexts_plain (fun _ => id) hne hlegal (by omega)

theorem Tree.IsOperandData.readAsPrinted {e : Tree} (h : e.IsOperandData) :
    ∃ tokens, ReadAsPrinted e.eraseSpans tokens :=
  h.elim Tree.IsData.readAsPrinted Tree.IsEnclosedData.readAsPrinted

namespace ReadAsPrinted

variable {tree e : Tree} {tokens : List Token}

theorem ne_nil (h : ReadAsPrinted tree tokens) : tokens ≠ [] := by
  obtain ⟨t, more, rfl, -⟩ := (h.reads (Nat.le_refl _)).starts
  exact List.cons_ne_nil _ _

/-- The template function takes it as its one argument. -/
theorem call (h : ReadAsPrinted tree tokens) :
    ∃ tokens, ReadAsPrinted (templateCall tree .nowhere) tokens := by
  have hmembers : ∀ m ∈ templateMembers, IsWordText m := by decide
  have hparts : ∀ ts ∈ [tokens], ts ≠ [] := List.forall_mem_singleton.mpr h.ne_nil
  refine ⟨_, fun {n} hn => ?_, fun hs ht => spells_namedCall declarable_ember hmembers hparts
    (fun args hargs => ?_) ht⟩
  · simp only [List.length_cons, List.length_append, List.length_nil, commaTokens, laterTokens] at hn
    obtain ⟨k, rfl⟩ : ∃ k, n = k + 2 := ⟨n - 2, by omega⟩
    exact reads_call exprContexts_plain declarable_ember (by decide)
      (.cons (h.reads (by omega)) .nil)
  · obtain ⟨arg, rest, rfl, harg, hrest⟩ := List.map_eq_cons_iff.mp hargs
    obtain rfl := List.map_eq_nil_iff.mp hrest
    exact .cons (h.spells hs harg) .nil

/-- What is printed for it is read as this one expression. -/
theorem readAlone?_plain (h : ReadAsPrinted e.eraseSpans tokens) (source : Text) :
    readAlone? (e.plain false source) = some e.eraseSpans := by
  obtain ⟨gap, hgap, hlexes⟩ := (h.spells (s := { source := source }) rfl rfl).lexes_layout
    Doc.passesGaps_endsWord {}
  have hone : commaTokens [tokens] = tokens := List.append_nil _
  rw [← plain_eq_layout, ← hone] at hlexes
  have hlength := hlexes.length_le
  rw [hone] at hlength
  exact readAlone?_of_reads (C := (·.dialect = .plain)) rfl (List.cons_ne_nil _ _)
    (.cons (h.reads (by omega)) .nil) hlexes hgap.last

end ReadAsPrinted

end InlineTemplates.Script
