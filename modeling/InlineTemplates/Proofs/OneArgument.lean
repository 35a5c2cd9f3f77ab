import InlineTemplates.Proofs.Data.Parens
import InlineTemplates.Proofs.OpeningCall

/-! # One answer, one argument

The call that stands for a site is printed as the template function and, in its parentheses, the
expression that came of the answer. What the text is read as is for the rule for arguments to say:
that one expression, if it reads it so. A sequence it never reads. Code keeps the parentheses of its
sequences; an expression that is a sequence by itself comes out as several arguments. -/

namespace InlineTemplates

namespace Script

open Parse (openedCall readArguments callWith AtSourceEnd)

/-! ## In print -/

section
variable (s : Style) (span : Span) (ts : List Tree)

def Style.commaSeparated : Doc :=
  (lit "," ++ s.gap).intercalate (ts.map fun t => (s.print t).code)

theorem sameText_sequence :
    Doc.SameText (s.print (.expr .sequence span ts)).code (s.commaSeparated ts) := by
  have hcode : (s.print (.expr .sequence span ts)).code =
      Doc.before span.lo ++ (lit "," ++ s.gap).intercalate ((s.printAll ts).map Printed.whole) := rfl
  rw [hcode, Style.printAll_eq_map, List.map_map]
  exact Doc.SameText.intercalate fun t => .comments _ _ _ _

theorem sameText_arguments :
    Doc.SameText (s.arguments span (s.printAll ts)) (lit "(" ++ s.commaSeparated ts ++ lit ")") := by
  refine .append (.append (.refl _) ?_) (.refl _)
  have hlist : s.list .commas span ((s.printAll ts).map (·.entry Printed.whole)) =
      (lit "," ++ s.gap).intercalate (ts.map fun t =>
        (s.print t).whole ++ Doc.behind (s.print t).span.hi) := by
    rw [Style.printAll_eq_map, List.map_map]
    cases ts with
    | nil => rfl
    | cons t ts =>
      simp [Style.list, ListStyle.commas, Style.finalComma, Style.separator, Style.delimiter,
        Style.entry, Printed.entry, Function.comp_def]
  rw [hlist]
  exact Doc.SameText.intercalate fun t => .trans (.comments _ _ _ _) (.comments _ _ _ _)

theorem sameText_callWith :
    Doc.SameText (s.print (callWith ts span)).whole
      (lit "Ember.HTMLBars.template(" ++ s.commaSeparated ts ++ lit ")") := by
  have hcode : (s.print (callWith ts span)).code =
      Doc.before span.lo ++ ((s.print templateFunction).whole ++ [] ++
        s.arguments span (s.printAll ts)) := rfl
  have hfunction : ((s.print templateFunction).whole ++ lit "(").merged =
      lit "Ember.HTMLBars.template(" := rfl
  have hargs := Doc.SameText.append (.refl (s.print templateFunction).whole)
    (sameText_arguments s span ts)
  rw [← hfunction]
  refine .trans (.comments _ _ _ _) ?_
  rw [hcode, List.append_nil]
  refine .trans (fun _ _ => rfl) (hargs.trans ?_)
  rw [← List.append_assoc, ← List.append_assoc, List.append_assoc _ _ (lit ")"),
    List.append_assoc _ _ (lit ")")]
  exact .append (Doc.sameText_merged _) (.refl _)

end

/-- What is printed behind the opening parenthesis of a call with these arguments. -/
def argumentsText (dense : Bool) (source : Text) (args : List Tree) : Text :=
  (Style.commaSeparated { dense := dense, source := source } args ++ lit ")").layout
    { atStart := false }

theorem plain_callWith (dense : Bool) (source : Text) (args : List Tree) (span : Span) :
    (callWith args span).plain dense source = openedCall (argumentsText dense source args) := by
  rw [Tree.plain, Tree.render, Doc.render_nil]
  exact Doc.layout_eq_of_sameText (sameText_callWith _ span args) {}

theorem argumentsText_singleton {dense : Bool} {source : Text} {e : Tree}
    (h : (Style.print { dense := dense, source := source } e).code.OpensWithText) :
    ∃ n, argumentsText dense source [e] =
      e.plain dense source ++ List.replicate n ' ' ++ text ")" := by
  obtain ⟨n, hn⟩ := Doc.layout_append_text
    (Style.print { dense := dense, source := source } e).code (t := text ")") (List.cons_ne_nil _ _)
    { atStart := false }
  refine ⟨n, ?_⟩
  rw [plain_eq_layout, h.layout_eq, ← hn, argumentsText, Style.commaSeparated, List.map_singleton,
    List.intercalate_singleton]
  rfl

theorem argumentsText_sequence (dense : Bool) (source : Text) (span : Span) (parts : List Tree) :
    argumentsText dense source [.expr .sequence span parts] = argumentsText dense source parts := by
  refine Doc.layout_eq_of_sameText (.append ?_ (.refl _)) _
  rw [Style.commaSeparated, List.map_singleton, List.intercalate_singleton]
  exact sameText_sequence _ span parts

/-! ## In reading -/

/-- The rule for arguments reads these behind the parenthesis of the call. -/
def HasArguments (rest : Text) (args : List Tree) : Prop :=
  (readArguments rest).1.map (·.map Tree.eraseSpans) = .ok args

/-- Behind the arguments nothing is left, and they were read without an error. -/
def ArgumentsEndText (rest : Text) : Prop := ∃ last, AtSourceEnd last [] (readArguments rest).2

variable {rest : Text} {args : List Tree}

theorem HasArguments.read (h : HasArguments rest args) :
    ∃ found, readArguments rest = (.ok found, (readArguments rest).2) ∧
      args = found.map Tree.eraseSpans := by
  unfold HasArguments at h
  generalize readArguments rest = outcome at h
  obtain ⟨result, after⟩ := outcome
  cases result with
  | error e => cases h
  | ok found => exact ⟨found, rfl, (Except.ok.inj h).symm⟩

theorem of_readArguments {found : List Tree} {after : ParseState}
    (h : readArguments rest = (.ok found, after)) : HasArguments rest (found.map Tree.eraseSpans) := by
  unfold HasArguments
  rw [h]
  rfl

theorem HasArguments.not_sequence (h : HasArguments rest args) :
    ∀ a ∈ args, a.kind ≠ .expr .sequence := by
  obtain ⟨found, hread, rfl⟩ := h.read
  have hfree : ∀ a ∈ found, a.NotSequence :=
    Parse.gives_iff.mp (Parse.gives_arguments (Parse.commaFree_ofDepth _)) _ _ _ _ hread
  intro a ha
  obtain ⟨b, hb, rfl⟩ := List.mem_map.mp ha
  rw [b.kind_eraseSpans]
  exact hfree b hb

theorem hasArguments_of_readAlone? (h : readAlone? (openedCall rest) = some (callWith args .nowhere)) :
    HasArguments rest args := by
  unfold readAlone? at h
  split at h
  · next e after hread =>
    split at h
    · obtain ⟨hrun, -⟩ := Parse.of_onSource_ok hread
      have hcall := Option.some.inj h
      obtain ⟨s₁, hexpression⟩ := Parse.of_runOn_wholeExpression hrun
      obtain ⟨s₂, hcallOf⟩ :=
        (Parse.sameWhere_expression_call rest).of_outer hexpression ⟨args, hcall⟩
      obtain ⟨found, hargs, rfl⟩ := Parse.of_runOn_callOf_readFunction hcallOf
      rw [Parse.eraseSpans_readCall] at hcall
      have hfound : found.map Tree.eraseSpans = args := congrArg (·.items 1) hcall
      exact hfound ▸ of_readArguments hargs
    · cases h
  · cases h

theorem readAlone?_of_hasArguments (h : HasArguments rest args) (hend : ArgumentsEndText rest) :
    readAlone? (openedCall rest) = some (callWith args .nowhere) := by
  obtain ⟨found, hread, rfl⟩ := h.read
  obtain ⟨last, hend⟩ := hend
  have hcall := Parse.runOn_callOf_readFunction hread
  obtain ⟨s₁, hexpression, hend₁⟩ := (Parse.sameWhere_expression_call rest).of_inner hcall
    ⟨_, Parse.eraseSpans_readCall _ _⟩ hend
  obtain ⟨s', hwhole, hend'⟩ := Parse.runOn_wholeExpression hexpression hend₁
  rw [readAlone?_of_runOn hwhole hend'.rest hend'.errors, Parse.eraseSpans_readCall]

end Script

open Script (Tree Style Datum Lexes LastGap commaTokens sequenceOf argumentsText
  argumentsText_singleton argumentsText_sequence plain_callWith readAlone? HasArguments
  ArgumentsEndText hasArguments_of_readAlone? readAlone?_of_hasArguments fragment?
  fragment?_eq_ok_iff_fillsParens fillsParens_of_lexes)
open Script.Parse (openedCall callWith)

variable {σ : Type}

theorem not_sequence_of_fragment {code : Text} {e : Tree} (h : fragment? code = .ok e) :
    e.kind ≠ .expr .sequence := by
  obtain ⟨inner, -, rfl⟩ := fragment?_eq_ok_iff_fillsParens.mp h
  rw [Tree.kind_eraseSpans]
  split
  · exact nofun
  · next hinner => exact hinner

theorem fragment?_of_precompile {p : Precompiler σ} {template code : Text} {span : Span} {e : Tree}
    {s s' : σ} (h : (precompile p template span).runFrom s = (.ok e, s'))
    (hcode : ((p template).run s).1 = .code code) : fragment? code = .ok e := by
  have hanswer : (p template s).1 = .code code := hcode
  rw [runFrom_precompile, hanswer, expression?_code] at h
  cases hfragment : fragment? code with
  | ok t =>
    rw [hfragment] at h
    cases h
    rfl
  | error d =>
    rw [hfragment] at h
    cases h

/-- Data, and several data with commas between them, come out of code as one operand. -/
theorem isOperandData_of_fragment {code behind : Text} {e : Tree} {data : List Datum}
    (h : fragment? code = .ok e) (hne : data ≠ []) (hlegal : Datum.AllLegal data)
    (hlexes : Lexes code (commaTokens (Datum.tokensOfAll data)) behind) (hgap : LastGap behind) :
    e.IsOperandData := by
  obtain ⟨inner, hfills, hinner⟩ := fillsParens_of_lexes hne hlegal hlexes hgap
  have he := Except.ok.inj (h.symm.trans (fragment?_eq_ok_iff_fillsParens.mpr ⟨inner, hfills, rfl⟩))
  cases data with
  | nil => exact absurd rfl hne
  | cons d more =>
    cases more with
    | nil =>
      have hkind : inner.kind ≠ .expr .sequence := by
        rw [← inner.kind_eraseSpans, hinner]
        exact d.kind_tree_ne_sequence
      rw [if_neg hkind, hinner] at he
      exact .inl ⟨d, hlegal.1, he ▸ d.eraseSpans_tree⟩
    | cons d' more =>
      have hkind : inner.kind = .expr .sequence := by
        rw [← inner.kind_eraseSpans, hinner]
        rfl
      rw [if_pos hkind] at he
      refine .inr ⟨_, hne, hlegal, ?_⟩
      rw [he, Tree.Is, Tree.eraseSpans_eraseSpans]
      exact congrArg (fun t => Tree.expr .paren .nowhere [t]) hinner

/-- **What an accepted answer is read back as is for the rule for arguments to say.** The call is
printed with the expression in its parentheses as it is printed by itself. It is read as a call with
the arguments that the rule reads there, and with these alone; where the rule reads the one
expression, this is the one argument. So it reads data, and so data in parentheses, one or several.
A sequence is no argument: it is printed as its parts are that are arguments. Of code no sequence
comes without parentheses, so that several data of code are one argument. -/
theorem answer_read_as_argument {p : Precompiler σ} {template : Text} {span : Span} {e : Tree}
    {s s' : σ} (h : (precompile p template span).runFrom s = (.ok e, s')) (dense : Bool)
    (source : Text) (place : Span) :
    let call := (templateCall e place).plain dense source
    let behind := argumentsText dense source [e]
    call = openedCall behind ∧
    ((Style.print { dense := dense, source := source } e).code.OpensWithText →
      ∃ n, behind = e.plain dense source ++ List.replicate n ' ' ++ text ")") ∧
    (∀ args, readAlone? call = some (callWith args .nowhere) → HasArguments behind args) ∧
    (∀ args, HasArguments behind args → ArgumentsEndText behind →
      readAlone? call = some (callWith args .nowhere)) ∧
    (e.IsOperandData → dense = false → readAlone? (e.plain dense source) = some e.eraseSpans ∧
      readAlone? call = some (callWith [e.eraseSpans] .nowhere)) ∧
    (∀ whole parts, e = .expr .sequence whole parts →
      call = (callWith parts place).plain dense source ∧
      readAlone? call ≠ some (templateCall e .nowhere).eraseSpans) ∧
    (∀ code, ((p template).run s).1 = .code code → e.kind ≠ .expr .sequence ∧
      ∀ data behind, data ≠ [] → Datum.AllLegal data →
        Lexes code (commaTokens (Datum.tokensOfAll data)) behind → LastGap behind →
        e.IsOperandData) := by
  have hcall : (templateCall e place).plain dense source =
      openedCall (argumentsText dense source [e]) := plain_callWith dense source [e] place
  dsimp only
  rw [hcall]
  refine ⟨rfl, argumentsText_singleton, fun _ => hasArguments_of_readAlone?,
    fun _ => readAlone?_of_hasArguments, fun hdata hdense => ?_, ?_, fun code hcode => ?_⟩
  · subst hdense
    obtain ⟨tokens, hback⟩ := hdata.readAsPrinted
    obtain ⟨callTokens, hcallBack⟩ := hback.call
    refine ⟨hback.readAlone?_plain source, ?_⟩
    rw [← hcall]
    exact hcallBack.readAlone?_plain (e := templateCall e place) source
  · rintro whole parts rfl
    refine ⟨?_, fun hread => ?_⟩
    · rw [plain_callWith, argumentsText_sequence]
    · have hargs : HasArguments _ [(Tree.expr .sequence whole parts).eraseSpans] :=
        hasArguments_of_readAlone? hread
      exact hargs.not_sequence _ List.mem_cons_self rfl
  · have hfragment := fragment?_of_precompile h hcode
    exact ⟨not_sequence_of_fragment hfragment, fun _ _ => isOperandData_of_fragment hfragment⟩

open Sample

namespace Sample

/-- `a, b` -/
def bareSequence : Tree := .expr .sequence .nowhere [word (text "a"), word (text "b")]

end Sample

/-- The code `a, b` is one argument. -/
theorem answer_read_as_argument_sequence :
    (precompile (answering (text "a, b")).precompiler [] .nowhere).runFrom () =
      (.ok (.expr .paren .nowhere [bareSequence]), ()) ∧
    (templateCall (.expr .paren .nowhere [bareSequence]) .nowhere).plain false [] =
      text "Ember.HTMLBars.template((a, b))" ∧
    readAlone? (text "Ember.HTMLBars.template((a, b))") =
      some (templateCall (.expr .paren .nowhere [bareSequence]) .nowhere) := by
  have haccepted : (precompile (answering (text "a, b")).precompiler [] .nowhere).runFrom () =
      (.ok (.expr .paren .nowhere [bareSequence]), ()) :=
    runFrom_precompile_code rfl (eq_ok_of_toOption (by decide +kernel)) .nowhere
  have hbehind : argumentsText false [] [.expr .paren .nowhere [bareSequence]] = text "(a, b))" := by
    decide +kernel
  obtain ⟨hprinted, -, -, hread, -, -, -⟩ := answer_read_as_argument haccepted false [] .nowhere
  have hargs : HasArguments (text "(a, b))") [.expr .paren .nowhere [bareSequence]] :=
    eq_ok_of_toOption (by decide +kernel)
  have hend : ArgumentsEndText (text "(a, b))") :=
    ⟨⟨31, 32⟩, Option.isNone_iff_eq_none.mp (by decide +kernel),
      Option.isNone_iff_eq_none.mp (by decide +kernel), by decide +kernel, by decide +kernel,
      by decide +kernel, by decide +kernel⟩
  rw [hbehind] at hprinted hread
  refine ⟨haccepted, hprinted, ?_⟩
  have h := hread _ hargs hend
  rw [hprinted] at h
  exact h

/-- The sequence `a, b` by itself is read back, and as an argument it is two. -/
theorem sequence_read_as_two_arguments :
    (precompile (fun _ => return .expression bareSequence) [] .nowhere).runFrom () =
      (.ok bareSequence, ()) ∧
    readAlone? (bareSequence.plain false []) = some bareSequence ∧
    (templateCall bareSequence .nowhere).plain false [] = text "Ember.HTMLBars.template(a, b)" ∧
    readAlone? (text "Ember.HTMLBars.template(a, b)") =
      some (callWith [word (text "a"), word (text "b")] .nowhere) ∧
    ∀ argument, readAlone? ((templateCall bareSequence .nowhere).plain false []) ≠
      some (callWith [argument] .nowhere) := by
  have hprinted : (templateCall bareSequence .nowhere).plain false [] =
      text "Ember.HTMLBars.template(a, b)" := by decide +kernel
  have hread : readAlone? (text "Ember.HTMLBars.template(a, b)") =
      some (callWith [word (text "a"), word (text "b")] .nowhere) := by decide +kernel
  refine ⟨rfl, by decide +kernel, hprinted, hread, fun argument hone => ?_⟩
  rw [hprinted, hread] at hone
  have hargs : [word (text "a"), word (text "b")] = [argument] :=
    congrArg (·.items 1) (Option.some.inj hone)
  cases hargs

end InlineTemplates
