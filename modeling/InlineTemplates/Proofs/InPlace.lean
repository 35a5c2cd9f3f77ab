import InlineTemplates.Proofs.Printing.Node
import InlineTemplates.Proofs.Untouched

/-! # A changed module in print

Code comes out without a pass that puts parentheses where they are needed. What is printed for a
changed module is what is printed for the module without its imports of targets, with the code of
each call in the place of the code of its site. -/

namespace InlineTemplates

open Script (Tree Kind Doc Style Printed Comments)

/-! ## Swapped trees -/

/-- What the printer asks of a tree besides its code is the same for both. -/
structure Replaces (t u : Tree) : Prop where
  span : t.span = u.span
  before : t.kind.isApplied = true
  after : u.kind.isApplied = true

def codeSwaps (s : Style) (pairs : Tree → Tree → Prop) (d d' : Doc) : Prop :=
  ∃ t u, pairs t u ∧ d = (s.print t).code ∧ d' = (s.print u).code

section
variable {s : Style} {pairs : Tree → Tree → Prop} {swaps : Doc → Doc → Prop}

theorem code_of_isApplied (s : Style) {t : Tree} (h : t.kind.isApplied = true) :
    ∃ inner, (s.print t).code = Doc.before t.span.lo ++ inner := by
  obtain ⟨kind, span, parts⟩ := t
  rcases Kind.of_isApplied h with hkind | hkind
  · obtain rfl : kind = _ := hkind
    exact ⟨_, rfl⟩
  · obtain rfl : kind = _ := hkind
    exact ⟨_, rfl⟩

theorem code_ne_nil {t : Tree} (h : t.kind.isApplied = true) : (s.print t).code ≠ [] := by
  obtain ⟨inner, hcode⟩ := code_of_isApplied s h
  rw [hcode]
  exact List.cons_ne_nil _ _

theorem codeSwaps_ne_nil (hpairs : ∀ t u, pairs t u → Replaces t u) {d d' : Doc}
    (h : codeSwaps s pairs d d') : d ≠ [] ∧ d' ≠ [] := by
  obtain ⟨t, u, hpair, rfl, rfl⟩ := h
  have hreplaces := hpairs t u hpair
  exact ⟨code_ne_nil hreplaces.before, code_ne_nil hreplaces.after⟩

theorem alike_of_replaces {t u : Tree} (h : Replaces t u)
    (hswap : swaps (s.print t).code (s.print u).code) :
    Printed.Alike s swaps (s.print t) (s.print u) := by
  have hcode : Doc.Spliced swaps (s.print t).code (s.print u).code := .of_swaps hswap
  obtain ⟨hspan, hbefore, hafter⟩ := h
  obtain ⟨kind, span, ts⟩ := t
  obtain ⟨kind', span', us⟩ := u
  have hnone : (if kind.isApplied then [] else s.printAll ts) = [] := if_pos hbefore
  have hnone' : (if kind'.isApplied then [] else s.printAll us) = [] := if_pos hafter
  refine .mk hspan (.inr ⟨hbefore, hafter⟩) hcode ?_
  rw [hnone, hnone']
  exact .nil

/-! ## Printing a filled frame -/

mutual
theorem print_fill (hs : s.dense = false) (hne : ∀ d d', swaps d d' → d ≠ [] ∧ d' ≠ [])
    (hparens : s.comments = [] ∨ Doc.SwapsTexts swaps)
    (hpairs : ∀ t u, pairs t u → Replaces t u ∧ swaps (s.print t).code (s.print u).code)
    (bindings : List Binding) :
    ∀ (t : Tree) {us : List Tree}, List.Forall₂ pairs (outermost bindings t) us →
      Printed.Alike s swaps (s.print t) (s.print ((frameOf bindings t).fill us))
  | .node kind span parts, us, h => by
    cases hsite : siteOf? bindings (.node kind span parts) with
    | some site =>
      rw [outermost, hsite] at h
      rw [frameOf, hsite]
      cases h with
      | cons hpair hnil =>
        cases hnil
        obtain ⟨hreplaces, hswap⟩ := hpairs _ _ hpair
        exact alike_of_replaces hreplaces hswap
    | none =>
      rw [outermost, hsite] at h
      rw [frameOf, hsite]
      have halike := printAll_fillAll hs hne hparens hpairs bindings parts h
      refine .mk rfl (.inl rfl) (Style.nodeCode_alike hs hne hparens kind span halike) ?_
      split
      · exact .nil
      · exact halike

theorem printAll_fillAll (hs : s.dense = false) (hne : ∀ d d', swaps d d' → d ≠ [] ∧ d' ≠ [])
    (hparens : s.comments = [] ∨ Doc.SwapsTexts swaps)
    (hpairs : ∀ t u, pairs t u → Replaces t u ∧ swaps (s.print t).code (s.print u).code)
    (bindings : List Binding) :
    ∀ (ts : List Tree) {us : List Tree}, List.Forall₂ pairs (outermostOfAll bindings ts) us →
      List.Forall₂ (Printed.Alike s swaps) (s.printAll ts)
        (s.printAll (Frame.fillAll (frameOfAll bindings ts) us))
  | [], _, _ => .nil
  | t :: ts, us, h => by
    rw [outermostOfAll] at h
    have hhere := List.forall₂_take (outermost bindings t).length h
    have hothers := List.forall₂_drop (outermost bindings t).length h
    rw [List.take_left] at hhere
    rw [List.drop_left] at hothers
    rw [frameOfAll, Frame.fillAll, holes_frameOf]
    exact .cons (print_fill hs hne hparens hpairs bindings t hhere)
      (printAll_fillAll hs hne hparens hpairs bindings ts hothers)
end

end

/-! ## The printed module -/

section
variable {σ : Type}

theorem doc_alike {style : Style} {swaps : Doc → Doc → Prop} {t u : Tree}
    (h : Printed.Alike style swaps (style.print t) (style.print u)) :
    Doc.Spliced swaps (t.doc style) (u.doc style) := by
  have hexpr : t.isExpr = u.isExpr := by
    cases t
    cases u
    refine h.root.congr (f := Tree.isExpr) (fun kind _ _ _ _ => ?_) (fun _ _ => rfl) fun _ _ => rfl
    cases kind <;> rfl
  rw [Tree.doc, Tree.doc, hexpr]
  exact .ite h.whole h.code

theorem calls_for_sites {p : Precompiler σ} {s s' : σ} {bindings : List Binding} {rest : Tree}
    {calls : List Tree} (h : Expansions p s (outermostSites bindings rest) calls s') :
    List.Forall₂ (fun use call => ∃ e, call = templateCall e use.span) (outermost bindings rest)
      calls := by
  have hspans := (span_of_expansions h).trans (span_of_outermostSites bindings rest)
  have hmapped : List.Forall₂ Eq ((outermost bindings rest).map Tree.span) (calls.map Tree.span) := by
    rw [List.forall₂_eq_eq_eq, hspans]
  have hpairs := List.forall₂_map_right_iff.mp (List.forall₂_map_left_iff.mp hmapped)
  refine List.forall₂_iff_zip.mpr ⟨hpairs.length_eq, fun {use call} hmem => ?_⟩
  obtain ⟨e, span, rfl⟩ := areTemplateCalls_of_expansions h call (List.of_mem_zip hmem).2
  have hspan : use.span = span := (List.forall₂_iff_zip.mp hpairs).2 hmem
  exact ⟨e, hspan ▸ rfl⟩

theorem replaces_of_expansions {p : Precompiler σ} {s s' : σ} {bindings : List Binding}
    {rest : Tree} {calls : List Tree} (h : Expansions p s (outermostSites bindings rest) calls s') :
    List.Forall₂ Replaces (outermost bindings rest) calls := by
  obtain ⟨hlen, hcalls⟩ := List.forall₂_iff_zip.mp (calls_for_sites h)
  refine List.forall₂_iff_zip.mpr ⟨hlen, fun {t u} hmem => ?_⟩
  obtain ⟨site, hsite⟩ := siteOf?_of_mem_outermost (List.of_mem_zip hmem).1
  obtain ⟨e, rfl⟩ := hcalls hmem
  exact ⟨rfl, isApplied_of_siteOf? hsite, rfl⟩

/-- In print each call stands where its site stood, and nothing around it changes. -/
theorem spliced_of_runFrom {p : Precompiler σ} {bindings : List Binding} {rest : Tree}
    {calls : List Tree} {style : Style} {s s' : σ} (hs : style.dense = false)
    (hcomments : style.comments = [])
    (h : Expansions p s (outermostSites bindings rest) calls s') :
    Doc.Spliced (codeSwaps style fun site call => (site, call) ∈ (outermost bindings rest).zip calls)
      (rest.doc style) (((frameOf bindings rest).fill calls).doc style) := by
  obtain ⟨hlen, hreplaces⟩ := List.forall₂_iff_zip.mp (replaces_of_expansions h)
  have hpairs : List.Forall₂ (fun site call => (site, call) ∈ (outermost bindings rest).zip calls)
      (outermost bindings rest) calls := List.forall₂_iff_zip.mpr ⟨hlen, id⟩
  exact doc_alike (print_fill hs (fun _ _ => codeSwaps_ne_nil fun _ _ => hreplaces)
    (.inl hcomments) (fun t u h => ⟨hreplaces h, t, u, h, rfl, rfl⟩) bindings rest hpairs)

end

end InlineTemplates
