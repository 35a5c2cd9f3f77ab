import InlineTemplates.Proofs.Data.Printing
import InlineTemplates.Proofs.Host.Variables
import InlineTemplates.Proofs.Printing.Call

/-! # Expressions as the argument of the call

Where the rule for arguments reads the print of an expression as this expression, the whole call is
read as it was printed. Data is always so read, in each dialect. -/

namespace InlineTemplates.Script

open Parse (Takes Reads ExprContexts arguments assignmentExpr memberTokens exprContexts_all
  takes_assignment_call takes_primary_name takes_arguments reads_data isMark_of_mem_closers)

/-- The text of it behind the name of what is called. -/
def argumentText (s : Style) (depth : Nat) (e : Tree) : Text :=
  (argumentDoc s e).layout { depth := depth, atStart := false }

/-- In the value of a variable of a module, the rule for arguments reads what is printed for the
expression as this one expression, and leaves what follows the parentheses. -/
def ReadsAsArgument (d : Dialect) (e : Tree) : Prop :=
  ∀ (s : Style) (depth : Nat) (y : Text) (n : Nat), s.dense = false →
    8 * (argumentText s depth e ++ y).length ≤ n →
    Takes (fun _ => True) (valueContext d) (argumentText s depth e ++ y) y
      (arguments (.ofDepth n) false) (·.map Tree.eraseSpans = [e.eraseSpans])

variable {d : Dialect} {n x y z w : Text} {e : Tree} {s : Style} {kind : VarKind}

/-! ## The call -/

def templateMembers : List Text := [text "HTMLBars", text "template"]

theorem declarable_ember : Declarable (text "Ember") := by decide

theorem takes_templateCall {C : Context → Prop} {c : Context} (hC : ExprContexts C) {k : Nat}
    {t? : Option Token}
    (hx : Lexes x (wordToken (text "Ember") :: memberTokens templateMembers) z)
    (hz : ∃ v, Leads z (.mark .parenOpen) v)
    (hargs : Takes C c z w (arguments (.ofDepth (k + 1)) false)
      (·.map Tree.eraseSpans = [e.eraseSpans]))
    (hw : Parse.Shows w t?) (hclose : t? ∈ closers) :
    Takes C c x w (assignmentExpr (.ofDepth (k + 2))) (templateCall e.eraseSpans .nowhere).Is := by
  obtain ⟨u, hname, hmembers⟩ := hx
  obtain ⟨v, hv⟩ := hz
  have hrests : Parse.Rests z true (some (.mark .parenOpen)) := ⟨.of_leads hv, by decide, rfl, rfl⟩
  obtain ⟨u?, hu, hnot⟩ := Parse.shows_members hmembers hrests
  have hprimary (c : Context) := takes_primary_name (C := C) (c := c) (g := .ofDepth k)
    declarable_ember (by decide) hname hu (hnot _ (by decide))
  exact (takes_assignment_call hC hname (by decide) hprimary hmembers hv hargs hw hclose).mono
    fun _ he => he.1

theorem takes_callValue (hz : Lexes z (wordToken (text "Ember") :: memberTokens templateMembers) x)
    (hx : ∃ v, Leads x (.mark .parenOpen) v)
    (hargs : ∀ n, 8 * x.length ≤ n → Takes (fun _ => True) (valueContext d) x w
      (arguments (.ofDepth n) false) (·.map Tree.eraseSpans = [e.eraseSpans]))
    (hw : Leads w (.mark .semicolon) y) (m : Nat) (hm : 8 * z.length ≤ m) :
    Takes (fun _ => True) (valueContext d) z w (Grammar.ofDepth m).assignment
      (templateCall e.eraseSpans .nowhere).Is := by
  have hlength := hz.length_le
  simp only [List.length_cons] at hlength
  obtain ⟨k, rfl⟩ : ∃ k, m = k + 3 := ⟨m - 3, by omega⟩
  exact takes_templateCall exprContexts_all hz hx (hargs (k + 1) (by omega)) (.of_leads hw)
    (by simp [closers])

/-! ## Data as the argument -/

theorem Datum.lexes_argumentText (hs : s.dense = false) {datum : Datum} (h : datum.Legal)
    (he : datum.tree.Is e) (depth : Nat) (y : Text) : Lexes (argumentText s depth e ++ y)
      (.mark .parenOpen :: (commaTokens (tokensOfAll [datum]) ++ [.mark .parenClose])) y := by
  have hopened : Doc.Spells endsWord (lit "(" ++ (s.print e).code)
      (.mark .parenOpen :: datum.tokens) :=
    Doc.spells_mark_append rfl (spells_datum hs datum e h he) datum.tokens_ne_nil
  have hcomma : commaTokens (tokensOfAll [datum]) = datum.tokens := List.append_nil _
  rw [hcomma]
  exact hopened.lexes_append_mark Doc.passesGaps_endsWord rfl (by decide) _ y

theorem isData_templateCall (h : e.IsData) (span : Span) : (templateCall e span).IsData := by
  obtain ⟨datum, hdatum, he⟩ := h
  have hmembers : ∀ m ∈ templateMembers, IsWordText m := by decide
  refine ⟨.call (text "Ember") templateMembers [datum],
    ⟨⟨declarable_ember, by decide, hmembers⟩, hdatum, trivial⟩, ?_⟩
  exact congrArg (fun arg => Tree.expr .call .nowhere [templateFunction, .list [arg], .absent]) he

/-- Data is read as the one argument, in each dialect. -/
theorem readsAsArgument_of_isData (h : e.IsData) (d : Dialect) : ReadsAsArgument d e := by
  obtain ⟨datum, h, he⟩ := h
  intro s depth y n hs hn
  have hlexes := datum.lexes_argumentText hs h he depth y
  have hlength := hlexes.length_le
  have hdepth := Datum.depthOfAll_le_length [datum]
  simp only [List.length_cons, List.length_append, List.length_nil] at hlength hn
  obtain ⟨k, rfl⟩ : ∃ k, n = k + 1 := ⟨n - 1, by omega⟩
  have hread := reads_data (C := fun _ => True) exprContexts_all [datum] ⟨h, trivial⟩ k (by omega)
  rw [he]
  exact takes_arguments exprContexts_all hread hlexes

end InlineTemplates.Script
