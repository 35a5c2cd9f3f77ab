import InlineTemplates.Proofs.Data.Printing
import InlineTemplates.Proofs.Host.Argument
import InlineTemplates.Proofs.Host.Printing

/-! # Values that are read back

A variable is read as it was printed where its value is: a call whose argument the rule for arguments
reads, or data. -/

namespace InlineTemplates

open Script (Tree Dialect Style Doc Printed Comments Margin Gap Leads Lexes Declarable Datum endsWord
  variableTree wordToken lit ReadsAsArgument argumentDoc argumentText isSpace isGap_gap isGap_newline
  valueContext templateMembers)
open Script.Doc (Spells Opens IsGap SameText unprinted)
open Script.Parse (memberTokens Takes)

variable {s : Style} {d : Dialect} {e : Tree}

/-! ## The call -/

theorem lexes_templateFunction {x : Text} (hx : Script.EndsWord x) :
    Lexes (text "Ember.HTMLBars.template" ++ x)
      (wordToken (text "Ember") :: memberTokens templateMembers) x := by
  have hdot {ch : Char} {y : Text} (hch : (ch != '.' && !Text.isDigit ch) = true) :
      Leads ('.' :: ch :: y) (.mark .dot) (ch :: y) := ⟨[], ['.'], .nil, .dot hch, rfl⟩
  exact ⟨text ".HTMLBars.template" ++ x, Script.leads_word (n := text "Ember") (by decide) rfl,
    text "HTMLBars.template" ++ x, hdot (by decide),
    text ".template" ++ x, Script.leads_word (n := text "HTMLBars") (by decide) rfl,
    text "template" ++ x, hdot (by decide),
    x, Script.leads_word (n := text "template") (by decide) hx, rfl⟩

theorem layout_callDoc {cs : Comments} (hplaced : ∀ c ∈ cs, c.position ≠ 0)
    (he : ∀ u ∈ e.nodes, u.span = .nowhere) (m : Margin) : ∃ n m', ∀ rest : Doc,
      Doc.layout m ((s.callDoc e).withComments cs ++ rest) =
        List.replicate n ' ' ++ (text "Ember.HTMLBars.template" ++
          (argumentText s m.depth e ++ Doc.layout m' rest)) := by
  have hplain : SameText ((s.callDoc e).withComments cs) (s.callDoc e) :=
    Doc.sameText_withComments fun c hc hmem => hplaced c hc (only_callDoc s he _ hmem)
  obtain ⟨n, hfunction⟩ := Doc.layout_text m (t := text "Ember.HTMLBars.template") (by decide)
  obtain ⟨m', hargument⟩ := Doc.layout_append (argumentDoc s e) { m with atStart := false }
  refine ⟨n, m', fun rest => ?_⟩
  rw [hplain.trans (sameText_callDoc s e) m rest, List.append_assoc, argumentText, ← hargument]
  exact hfunction (argumentDoc s e ++ rest)

/-! ## Values -/

/-- On a page with comments of the source, what is printed for the value is read as this value in front
of a semicolon. -/
def ReadsAsValue (d : Dialect) (s : Style) (value : Tree) : Prop :=
  ∀ cs : Comments, cs.Legal → ∀ m, ∃ m' gap, Gap gap ∧
    ∀ gap₀ rest y, Gap gap₀ → Leads (gap ++ Doc.layout m' rest) (.mark .semicolon) y →
      let x := gap₀ ++ Doc.layout m ((s.print value).whole.withComments cs ++ rest)
      (gap ++ Doc.layout m' rest).length ≤ x.length ∧
      ∀ n, 8 * x.length ≤ n → Takes (fun _ => True) (valueContext d) x (gap ++ Doc.layout m' rest)
        (Script.Grammar.ofDepth n).assignment value.eraseSpans.Is

theorem readsAsValue_call (hs : s.dense = false) (he : ∀ u ∈ e.nodes, u.span = .nowhere)
    (hargs : ReadsAsArgument d e) (span : Span) : ReadsAsValue d s (templateCall e span) := by
  intro cs hlegal m
  let cs₁ := unprinted cs (Doc.before span.lo)
  have hlegal₁ : cs₁.Legal := hlegal.subset (unprinted_subset cs _)
  obtain ⟨m₁, gap₁, hgap₁, hbefore⟩ := Doc.isGap_comments .leading span.lo false cs hlegal.closed m
  obtain ⟨n, m₂, hcall⟩ := layout_callDoc (s := s) hlegal₁.placed he m₁
  obtain ⟨m', gap, hgap, hafter⟩ := Doc.isGap_comments .trailing span.hi true
    (unprinted cs₁ (s.callDoc e)) (Doc.closed_unprinted hlegal₁.closed _) m₂
  refine ⟨m', gap, hgap, fun gap₀ rest y hgap₀ hy => ?_⟩
  have hdoc : (s.print (templateCall e span)).whole.withComments cs ++ rest =
      (Doc.before span.lo).withComments cs ++ ((s.callDoc e).withComments cs₁ ++
        ((Doc.after span.hi).withComments (unprinted cs₁ (s.callDoc e)) ++ rest)) := by
    have hwhole : (s.print (templateCall e span)).whole =
        Doc.before span.lo ++ (s.callDoc e ++ Doc.after span.hi) := by
      rw [Printed.whole, code_templateCall, List.append_assoc]
      rfl
    rw [hwhole, Doc.withComments_append (Doc.before span.lo), Doc.withComments_append (s.callDoc e)]
    simp only [List.append_assoc]
    rfl
  have hz : Lexes (gap₀ ++ Doc.layout m ((s.print (templateCall e span)).whole.withComments cs ++ rest))
      (wordToken (text "Ember") :: memberTokens templateMembers)
      (argumentText s m₁.depth e ++ (gap ++ Doc.layout m' rest)) := by
    rw [hdoc, Doc.before, hbefore, hcall, Doc.after, hafter]
    refine .gap hgap₀ (by simp) (.gap hgap₁ (by simp) (.gap (Doc.gap_replicate n) (by simp) ?_))
    exact lexes_templateFunction rfl
  have hlength := hz.length_le
  simp only [List.length_append] at hlength ⊢
  refine ⟨by omega, fun k hk => ?_⟩
  refine Script.takes_callValue hz ⟨_, Script.leads_mark rfl _⟩ (fun n hn => ?_) hy k
    (by simpa using hk)
  exact hargs s m₁.depth _ n hs hn

theorem endsWord_of_leads_semicolon {x y : Text} (h : Leads x (.mark .semicolon) y) :
    Script.EndsWord x := by
  obtain ⟨gap, w, hgap, hw, rfl⟩ := h
  refine Doc.begins_gap Doc.passesGaps_endsWord hgap ?_
  generalize ht : Script.Token.mark .semicolon = t at hw
  cases hw with
  | word hn hy =>
    have hword := Script.isMark_wordToken w .semicolon
    rw [← ht] at hword
    cases hword
  | string h => cases ht
  | @mark ch m h =>
    cases ht
    unfold Script.Mark.ofChar? at h
    split at h
    all_goals cases h
    rfl
  | star hy => cases ht
  | dot hy => cases ht
  | assign hy => cases ht

theorem readsAsValue_datum (hs : s.dense = false) {datum : Datum} (hlegal : datum.Legal)
    {value : Tree} (hvalue : datum.tree.Is value) (d : Dialect) : ReadsAsValue d s value := by
  intro cs hlegalComments m
  have hspells : Spells endsWord (s.print value).whole datum.tokens :=
    (Script.spells_datum hs datum value hlegal hvalue).comments _ _ _
  obtain ⟨m', gap, hgap, hlexes⟩ := hspells cs hlegalComments.closed m
  refine ⟨m', gap, hgap, fun gap₀ rest y hgap₀ hy => ?_⟩
  have hx := (hlexes rest (endsWord_of_leads_semicolon hy)).gap hgap₀ datum.tokens_ne_nil
  have hlength := hx.length_le
  have hdepth := datum.depth_le_length
  have hsome := List.length_pos_of_ne_nil datum.tokens_ne_nil
  refine ⟨by omega, fun n hn => ?_⟩
  obtain ⟨k, rfl⟩ : ∃ k, n = k + 1 := ⟨n - 1, by omega⟩
  have hread := Script.Parse.reads_datum (C := fun _ => True) Script.Parse.exprContexts_all datum
    hlegal k (by omega)
  rw [hvalue]
  exact hread.takes hx (.of_leads hy) (by simp [Script.closers])

/-! ## Variables -/

/-- What keeps the sign before a value from being a longer one. -/
def endsAssign (ch : Char) : Bool := ch != '=' && ch != '>'

theorem passesGaps_endsAssign : Doc.PassesGaps endsAssign := by
  have hspace : isSpace '=' = false ∧ isSpace '>' = false := by decide
  rintro ch (h | rfl)
  · have hequals : ch ≠ '=' := by
      rintro rfl
      simp [hspace] at h
    have hgreater : ch ≠ '>' := by
      rintro rfl
      simp [hspace] at h
    simp [endsAssign, hequals, hgreater]
  · decide

namespace Holder

variable {h : Holder}

theorem spells_declares (hs : s.dense = false) (hn : Declarable h.name) :
    Spells endsAssign (h.declares s)
      [.keyword h.kind.keyword, wordToken h.name, .mark (.assign .plain)] := by
  have hgap : s.gap = [.text [' ']] := by simp [Style.gap, hs]
  have hblank : Opens endsWord [.text [' ']] :=
    Doc.opens_text Doc.passesGaps_endsWord (by decide)
  have hkeyword : Spells endsWord (lit h.kind.keyword.word) [.keyword h.kind.keyword] := by
    cases h.kind
    · exact Doc.spells_word (n := text "var") (by decide)
    · exact Doc.spells_word (n := text "let") (by decide)
    · exact Doc.spells_word (n := text "const") (by decide)
  have hassign : Spells endsAssign (lit "=") [.mark (.assign .plain)] :=
    Doc.spells_text fun _ hy => .assign hy
  have hbehind : Spells endsAssign (Doc.after h.nameSpan.hi ++ (s.gap ++ lit "="))
      [.mark (.assign .plain)] :=
    (Doc.isGap_comments _ _ _).spells ((isGap_gap s).spells hassign (by simp)) (by simp)
  have hopens : Opens endsWord (Doc.after h.nameSpan.hi ++ (s.gap ++ lit "=")) := by
    rw [hgap]
    exact (Doc.isGap_comments _ _ _).opens Doc.passesGaps_endsWord (hblank.append _)
  have hname : Spells endsAssign (s.gapIf true ++ (Doc.before h.declarator.lo ++
      (Doc.before h.nameSpan.lo ++ ([.text h.name] ++
        (Doc.after h.nameSpan.hi ++ (s.gap ++ lit "="))))))
      [wordToken h.name, .mark (.assign .plain)] := by
    refine (Doc.isGap_text (.of_all (by decide))).spells ?_ (by simp)
    refine Doc.spells_before _ (Doc.spells_before _ ?_ (by simp)) (by simp)
    exact (Doc.spells_word hn.1).append hbehind (by simp) Doc.passesGaps_endsWord hopens
  have hall := Doc.spells_before h.statement.lo
    (hkeyword.append hname (by simp) Doc.passesGaps_endsWord (hblank.append _)) (by simp)
  rw [declares]
  simp only [List.append_assoc]
  exact hall

theorem spells_ends : Spells (fun _ => true) (h.ends s) [.mark .semicolon] := by
  have hsemicolon : Spells (fun _ => true) (lit ";" ++ (Doc.after h.statement.hi ++ s.newline))
      [.mark .semicolon] :=
    (Doc.spells_mark rfl).behind ((Doc.isGap_comments _ _ _).append (isGap_newline s))
  have hall : Spells (fun _ => true) (Doc.behind h.declarator.hi ++ (lit ";" ++
      (Doc.after h.statement.hi ++ s.newline))) [.mark .semicolon] :=
    (Doc.isGap_comments _ _ _).spells hsemicolon (by simp)
  rw [ends]
  simp only [List.append_assoc]
  exact hall

theorem readsInPrint_tree (hs : s.dense = false) (hlegal : s.comments.Legal) (hn : Declarable h.name)
    {value : Tree} (habsent : value.isAbsent = false) (hvalue : ReadsAsValue d s value) :
    ReadsInPrint d s (h.tree value) where
  unmarked := by
    obtain ⟨ch, w, more, hdoc, hch⟩ : ∃ ch w more,
        h.declares s = Doc.before h.statement.lo ++ .text (ch :: w) :: more ∧
        isUnmarked ch = true := by
      unfold declares
      cases h.kind
      all_goals exact ⟨_, _, _, rfl, by decide⟩
    intro cs _ m rest
    rw [moduleItem_tree habsent, hdoc, List.append_assoc, Doc.withComments_append, List.append_assoc]
    exact begins_comments _ _ _ (begins_text hch w · _) m
  reads cs hcs m := by
    have hlegal := hlegal.subset hcs
    let cs₁ := unprinted cs (h.declares s)
    let cs₂ := unprinted cs₁ s.gap
    have hclosed₁ : cs₁.Closed := Doc.closed_unprinted hlegal.closed _
    have hcs₂ : cs₂ ⊆ cs := List.Subset.trans (unprinted_subset cs₁ s.gap) (unprinted_subset _ _)
    have hlegal₂ : cs₂.Legal := hlegal.subset hcs₂
    have hopens : Opens endsAssign s.gap := by
      rw [show s.gap = [.text [' ']] by simp [Style.gap, hs]]
      exact Doc.opens_text passesGaps_endsAssign (by decide)
    obtain ⟨m₁, gap₁, hgap₁, hdeclares⟩ := spells_declares hs hn cs hlegal.closed m
    obtain ⟨m₂, gap₂, hgap₂, hblanks⟩ := isGap_gap s cs₁ hclosed₁ m₁
    obtain ⟨m₃, gap₃, hgap₃, hread⟩ := hvalue cs₂ hlegal₂ m₂
    obtain ⟨m₄, gap₄, hgap₄, hends⟩ := spells_ends (h := h) (s := s)
      (unprinted cs₂ (s.print value).whole) (Doc.closed_unprinted hlegal₂.closed _) m₃
    refine ⟨m₄, gap₄, hgap₄, fun gap₀ rest hgap₀ => ?_⟩
    let r₂ : Doc := (h.ends s).withComments (unprinted cs₂ (s.print value).whole) ++ rest
    let r₁ : Doc := s.gap.withComments cs₁ ++ ((s.print value).whole.withComments cs₂ ++ r₂)
    have hdoc : (s.moduleItem (s.print (h.tree value))).withComments cs ++ rest =
        (h.declares s).withComments cs ++ r₁ := by
      rw [moduleItem_tree habsent, Doc.withComments_append (h.declares s),
        Doc.withComments_append s.gap, Doc.withComments_append (s.print value).whole]
      simp only [r₁, r₂, List.append_assoc]
      rfl
    have hx := hdeclares r₁ (Doc.begins_gap passesGaps_endsAssign hgap₁ (hopens _ hclosed₁ _ _))
    have hw : Leads (gap₃ ++ Doc.layout m₃ r₂) (.mark .semicolon) (gap₄ ++ Doc.layout m₄ rest) := by
      obtain ⟨_, hlead, rfl⟩ := (hends rest (Script.begins_true _)).gap hgap₃ (by simp)
      exact hlead
    obtain ⟨hshorter, htakes⟩ := hread (gap₁ ++ gap₂) r₂ _ (hgap₁.append hgap₂) hw
    have hvalueText : gap₁ ++ Doc.layout m₁ r₁ =
        gap₁ ++ gap₂ ++ Doc.layout m₂ ((s.print value).whole.withComments cs₂ ++ r₂) := by
      rw [hblanks, List.append_assoc]
    rw [← hvalueText] at hshorter htakes
    rw [hdoc, eraseSpans_tree]
    exact Script.readsItem_variable hn (hx.gap hgap₀ (by simp)) hshorter htakes hw

end Holder

/-! ## Hosts -/

/-- A variable with data as its value. -/
def Script.Tree.IsDataVariable (t : Tree) : Prop :=
  ∃ (h : Holder) (value : Tree), t = h.tree value ∧ Declarable h.name ∧ value.IsData

theorem isAbsent_of_isData {value : Tree} (h : value.IsData) : value.isAbsent = false := by
  obtain ⟨datum, -, hvalue⟩ := h
  have hexpr : value.isExpr = true := by
    rw [← datum.isExpr_tree, ← hvalue, Tree.isExpr, Tree.isExpr, Tree.kind_eraseSpans]
  obtain ⟨kind, span, parts⟩ := value
  cases kind <;> first | rfl | cases hexpr

theorem readsInPrint_dataVariable {d : Dialect} {s : Style} (hs : s.dense = false)
    (hlegal : s.comments.Legal) {t : Tree} (h : t.IsDataVariable) : ReadsInPrint d s t := by
  obtain ⟨h, value, rfl, hn, hvalue⟩ := h
  have habsent := isAbsent_of_isData hvalue
  obtain ⟨datum, hdatum, hvalue⟩ := hvalue
  exact h.readsInPrint_tree hs hlegal hn habsent (readsAsValue_datum hs hdatum hvalue d)

namespace Host

variable {h : Host} {d : Dialect} {s : Style} {value : Tree}

/-- The host is, but for its value, read as it was printed: each other item is. -/
structure Legible (h : Host) (d : Dialect) (s : Style) : Prop where
  named : Declarable h.holder.name
  comments : s.comments.Legal
  firstLine : LegalFirstLine h.hashbang h.whole.lo s.comments
  items : ∀ t ∈ h.before ++ h.after, ReadsInPrint d s t

theorem readAs?_value (hs : s.dense = false) (hlegible : h.Legible d s)
    (habsent : value.isAbsent = false) (hvalue : ReadsAsValue d s value) :
    readAs? d (((h.module value).doc s).render s.comments) = some (h.module value).eraseSpans := by
  obtain ⟨hn, hlegal, hline, hitems⟩ := hlegible
  refine readAs?_module hlegal.closed hline fun t ht => ?_
  rcases List.mem_append.mp ht with ht | ht
  · exact hitems t (List.mem_append_left _ ht)
  rcases List.mem_cons.mp ht with rfl | ht
  · exact h.holder.readsInPrint_tree hs hlegal hn habsent hvalue
  · exact hitems t (List.mem_append_right _ ht)

end Host
end InlineTemplates
