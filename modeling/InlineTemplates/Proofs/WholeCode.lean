import InlineTemplates.Proofs.Data.Alone
import InlineTemplates.Proofs.ReadBack
import InlineTemplates.Proofs.Reading

/-! # Code that a precompiler answers with

The code is read in parentheses. It is accepted if the parentheses that the text opens with end with
the text; what it gives is what these hold. A comma behind the last part is not seen, and neither is
an arrow behind a part that is no name. -/

namespace InlineTemplates

namespace Script

open Parse (onSource runOn openingParts startOf AtSourceEnd)

/-! ## What the parentheses hold -/

/-- The parentheses around a code fragment hold this and end with the text. -/
def FillsParens (code : Text) (inner : Tree) : Prop :=
  (onSource Parse.expression { dialect := .plain } (inParens code)).map (·.1) =
    .ok (.expr .paren ⟨1, (inParens code).length + 1⟩ [inner])

def readParts (code : Text) : Except SyntaxError (List Tree × Option Span) × ParseState :=
  runOn (openingParts (inParens code)) { dialect := .plain } (startOf (inParens code))

/-- The parts of a code fragment, as the parentheses around it hold them, and a comma behind them. -/
def HasParts (code : Text) (parts : List Tree) (comma : Option Span) : Prop :=
  (readParts code).1 = .ok (parts, comma)

/-- Behind the parentheses around a code fragment nothing is left, and they were read without an
error. -/
def PartsEndText (code : Text) : Prop :=
  ∃ lo, AtSourceEnd ⟨lo, (inParens code).length + 1⟩ [] (readParts code).2

theorem FillsParens.read {code : Text} {inner : Tree} (h : FillsParens code inner) :
    ∃ after, onSource Parse.expression { dialect := .plain } (inParens code) =
      .ok (.expr .paren ⟨1, (inParens code).length + 1⟩ [inner], after) := by
  unfold FillsParens at h
  cases hread : onSource Parse.expression { dialect := .plain } (inParens code) with
  | error e =>
    rw [hread] at h
    cases h
  | ok read =>
    obtain ⟨e, after⟩ := read
    rw [hread] at h
    obtain rfl := Except.ok.inj h
    exact ⟨after, rfl⟩

theorem parts_of_read {code : Text} {e : Tree} {after : ParseState}
    (h : onSource Parse.expression { dialect := .plain } (inParens code) = .ok (e, after))
    (he : e.kind = .expr .paren) :
    ∃ parts comma hi inner, HasParts code parts comma ∧ (∀ p ∈ parts, p.StandsInParens) ∧
      commaJoined parts = some inner ∧ e = .expr .paren ⟨1, hi⟩ [inner] := by
  have hopen : inParens code = '(' :: (code ++ text "\n)") := rfl
  obtain ⟨hrun, -⟩ := Parse.of_onSource_ok h
  rw [hopen] at hrun
  obtain ⟨parts, comma, s, hi, inner, hparts, hparens, hjoined, heq⟩ :=
    Parse.of_runOn_expression hrun he
  have hhas : HasParts code parts comma := by
    unfold HasParts readParts
    rw [hopen, hparts]
  exact ⟨parts, comma, hi, inner, hhas, hparens, hjoined, heq⟩

theorem FillsParens.parts {code : Text} {inner : Tree} (h : FillsParens code inner) :
    ∃ parts comma, HasParts code parts comma ∧ (∀ p ∈ parts, p.StandsInParens) ∧
      commaJoined parts = some inner := by
  obtain ⟨after, hread⟩ := h.read
  obtain ⟨parts, comma, hi, other, hparts, hparens, hjoined, heq⟩ := parts_of_read hread rfl
  cases heq
  exact ⟨parts, comma, hparts, hparens, hjoined⟩

theorem fillsParens_of_parts {code : Text} {parts : List Tree} {comma : Option Span} {inner : Tree}
    (hparts : HasParts code parts comma) (hend : PartsEndText code)
    (hparens : ∀ p ∈ parts, p.StandsInParens ∧ p.NoDefaults)
    (hinner : commaJoined parts = some inner) : FillsParens code inner := by
  have hopen : inParens code = '(' :: (code ++ text "\n)") := rfl
  obtain ⟨lo, hend⟩ := hend
  have hrun : readParts code = (.ok (parts, comma), (readParts code).2) := Prod.ext hparts rfl
  unfold readParts at hrun hend
  rw [hopen] at hrun hend
  obtain ⟨after, hexpression, hafter⟩ := Parse.runOn_expression_of_parts hrun hend
    (fun p hp => (hparens p hp).1) (fun p hp => (hparens p hp).2) hinner
  unfold FillsParens
  rw [hopen, Parse.onSource_of_runOn hexpression hafter.errors]
  rfl

/-- Data fills the parentheses as it is, whatever blanks and comments stand around it. -/
theorem fillsParens_of_lexes {code y : Text} {ds : List Datum} (hne : ds ≠ [])
    (hlegal : Datum.AllLegal ds) (h : Lexes code (commaTokens (Datum.tokensOfAll ds)) y)
    (hy : LastGap y) :
    ∃ inner, FillsParens code inner ∧ inner.eraseSpans = sequenceOf (Datum.trees ds) := by
  have hlexes : Lexes (inParens code)
      (.mark .parenOpen :: (commaTokens (Datum.tokensOfAll ds) ++ [.mark .parenClose])) [] := by
    refine ⟨_, leads_mark rfl (code ++ text "\n)"), lexes_append.mpr ⟨_, h.line [')'], [], ?_, rfl⟩⟩
    exact ⟨_, [')'], hy.line, .mark rfl, by simp⟩
  obtain ⟨⟨parts, comma⟩, s, lo, hrun, htrees, hend⟩ := runOn_openingParts_of_lexes hlegal hlexes
  obtain ⟨inner, hinner, heq⟩ := exists_commaJoined htrees (Datum.trees_ne_nil hne)
  have hparts : HasParts code parts comma := congrArg Prod.fst hrun
  have hendText : PartsEndText code := ⟨lo, by rw [readParts, hrun]; exact hend⟩
  refine ⟨inner, fillsParens_of_parts hparts hendText (fun p hp => ?_) hinner, heq⟩
  obtain ⟨d, -, hd⟩ := Datum.exists_of_mem_trees (htrees ▸ List.mem_map_of_mem hp)
  exact Datum.standsInParens hd

theorem fragment?_eq_ok_iff_fillsParens {code : Text} {e : Tree} :
    fragment? code = .ok e ↔ ∃ inner, FillsParens code inner ∧
      e = (if inner.kind = .expr .sequence then .expr .paren .nowhere [inner]
        else inner).eraseSpans := by
  rw [fragment?_eq_ok_iff]
  constructor
  · rintro ⟨span, inner, after, hread, hend, rfl⟩
    obtain ⟨-, -, hi, other, -, -, -, heq⟩ := parts_of_read hread rfl
    cases heq
    refine ⟨inner, ?_, ?_⟩
    · unfold FillsParens
      rw [hread, ← hend]
      rfl
    · split
      · rfl
      · rfl
  · rintro ⟨inner, hfills, rfl⟩
    obtain ⟨after, hread⟩ := hfills.read
    refine ⟨_, inner, after, hread, rfl, ?_⟩
    split
    · rfl
    · rfl

end Script

open Script (Tree Datum Lexes LastGap isExpression readAlone? isExpression_eq_isSome
  readAlone?_of_lexes commaTokens sequenceOf FillsParens HasParts PartsEndText commaJoined fragment?
  fragment?_eq_ok_iff_fillsParens fillsParens_of_parts fillsParens_of_lexes)

variable {σ : Type}

/-- **Code is accepted if it fills the parentheses that it is read in.** What these hold are its
parts, one at least and each of them an expression; so code is refused that closes them early. The
other way round, parts with which the text ends are accepted, with a comma behind them or without.
So data is accepted, and so are several data with commas between them, wherever blanks and comments
stand: they are the expression that the code is by itself. Where the code is refused, the error has
the code and the span of the site. -/
theorem code_fills_parens {p : Precompiler σ} {template code : Text} {span : Span} {s s' : σ}
    (h : (p template).run s = (.code code, s')) :
    (∀ e, (precompile p template span).runFrom s = (.ok e, s') ↔
      ∃ inner, FillsParens code inner ∧
        e = (if inner.kind = .expr .sequence then .expr .paren .nowhere [inner]
          else inner).eraseSpans) ∧
    (∀ inner, FillsParens code inner → ∃ parts comma, HasParts code parts comma ∧
      (∀ part ∈ parts, part.StandsInParens) ∧ commaJoined parts = some inner) ∧
    (∀ parts comma inner, HasParts code parts comma → PartsEndText code →
      (∀ part ∈ parts, part.StandsInParens ∧ part.NoDefaults) →
      commaJoined parts = some inner → FillsParens code inner) ∧
    (∀ data behind, data ≠ [] → Datum.AllLegal data →
      Lexes code (commaTokens (Datum.tokensOfAll data)) behind → LastGap behind →
      let inner := sequenceOf (Datum.trees data)
      isExpression (code ++ ['\n']) = true ∧ readAlone? (code ++ ['\n']) = some inner ∧
      (precompile p template span).runFrom s =
        (.ok (if inner.kind = .expr .sequence then .expr .paren .nowhere [inner] else inner), s')) ∧
    ((∀ inner, ¬ FillsParens code inner) → ∃ kind,
      (precompile p template span).runFrom s = (.error ⟨span, .output code kind⟩, s')) := by
  have hanswer : p template s = (.code code, s') := h
  rw [runFrom_precompile, hanswer, expression?_code]
  refine ⟨fun e => ?_, fun inner hfills => hfills.parts, fun _ _ _ => fillsParens_of_parts,
    fun data behind hne hlegal hlexes hgap => ?_, fun hrefused => ?_⟩
  · rw [← fragment?_eq_ok_iff_fillsParens]
    cases fragment? code <;> simp
  · have halone := readAlone?_of_lexes hne hlegal (hlexes.line []) hgap.line.last
    obtain ⟨inner, hfills, hinner⟩ := fillsParens_of_lexes hne hlegal hlexes hgap
    have hfragment := fragment?_eq_ok_iff_fillsParens.mpr ⟨inner, hfills, rfl⟩
    refine ⟨by rw [isExpression_eq_isSome, halone]; rfl, halone, ?_⟩
    rw [hfragment, ← hinner, Tree.kind_eraseSpans]
    by_cases hkind : inner.kind = .expr .sequence
    · rw [if_pos hkind, if_pos hkind]
      rfl
    · rw [if_neg hkind, if_neg hkind]
  · cases hfragment : fragment? code with
    | ok e =>
      obtain ⟨inner, hfills, -⟩ := fragment?_eq_ok_iff_fillsParens.mp hfragment
      exact absurd hfills (hrefused inner)
    | error d => exact ⟨d.kind, rfl⟩

namespace Sample

/-- `a` and `b`, with the places that they have behind a parenthesis. -/
def sequenceParts : List Tree :=
  [.expr (.name (text "a")) ⟨2, 3⟩ [], .expr (.name (text "b")) ⟨5, 6⟩ []]

end Sample

open Sample

/-- Two expressions are a sequence, which keeps its parentheses and loses the comma behind it. -/
theorem code_fills_parens_sequence :
    ((answering (text "a, b,")).precompiler []).run () = (.code (text "a, b,"), ()) ∧
    HasParts (text "a, b,") sequenceParts (some ⟨6, 7⟩) ∧ PartsEndText (text "a, b,") ∧
    (precompile (answering (text "a, b,")).precompiler [] .nowhere).runFrom () =
      (.ok (.expr .paren .nowhere [.expr .sequence .nowhere [word (text "a"), word (text "b")]]),
        ()) := by
  have hrun : ((answering (text "a, b,")).precompiler []).run () = (.code (text "a, b,"), ()) :=
    rfl
  have hparts : HasParts (text "a, b,") sequenceParts (some ⟨6, 7⟩) :=
    eq_ok_of_toOption (by decide +kernel)
  have hend : PartsEndText (text "a, b,") :=
    ⟨8, Option.isNone_iff_eq_none.mp (by decide +kernel),
      Option.isNone_iff_eq_none.mp (by decide +kernel), by decide +kernel, by decide +kernel,
      by decide +kernel, by decide +kernel⟩
  have hword (n : Text) (span : Span) : (Tree.expr (.name n) span []).StandsInParens ∧
      (Tree.expr (.name n) span []).NoDefaults := ⟨⟨nofun, rfl⟩, nofun⟩
  have hwords : ∀ part ∈ sequenceParts, part.StandsInParens ∧ part.NoDefaults := by
    simp [sequenceParts, hword]
  obtain ⟨haccepted, -, hfills, -, -⟩ := code_fills_parens hrun
  exact ⟨hrun, hparts, hend, (haccepted _).mpr ⟨_, hfills _ _ _ hparts hend hwords rfl, rfl⟩⟩

/-- A comma behind an expression is let through, and so is an arrow behind one that is no name,
though no expression ends with them. A comment that starts with an arrow is not, though an expression
may stand below it: behind the parenthesis the line has begun, and such an arrow starts a comment
only at the front of a line. -/
theorem expressions_misjudged :
    ((precompile (answering (text "a,")).precompiler [] .nowhere).runFrom () =
        (.ok (word (text "a")), ()) ∧
      isExpression (text "a,\n") = false) ∧
    ((precompile (answering (text "''=>")).precompiler [] .nowhere).runFrom () =
        (.ok (.expr (.string [] (some (text "''"))) .nowhere []), ()) ∧
      isExpression (text "''=>\n") = false) ∧
    ((∀ e, (precompile (answering (text "--> c\n1")).precompiler [] .nowhere).runFrom () ≠
        (.ok e, ())) ∧
      isExpression (text "--> c\n1\n") = true) := by
  have hcomma : fragment? (text "a,") = .ok (word (text "a")) :=
    eq_ok_of_toOption (by decide +kernel)
  have harrow : fragment? (text "''=>") = .ok (.expr (.string [] (some (text "''"))) .nowhere []) :=
    eq_ok_of_toOption (by decide +kernel)
  have hcomment : (fragment? (text "--> c\n1")).toOption = none := by decide +kernel
  refine ⟨⟨runFrom_precompile_code rfl hcomma .nowhere, by decide +kernel⟩,
    ⟨runFrom_precompile_code rfl harrow .nowhere, by decide +kernel⟩, ?_, by decide +kernel⟩
  intro e haccepted
  have hanswer : (answering (text "--> c\n1")).precompiler [] () =
    (.code (text "--> c\n1"), ()) := rfl
  rw [runFrom_precompile, hanswer, expression?_code] at haccepted
  cases hfragment : fragment? (text "--> c\n1") with
  | ok other =>
    rw [hfragment] at hcomment
    cases hcomment
  | error d =>
    rw [hfragment] at haccepted
    cases haccepted

end InlineTemplates
