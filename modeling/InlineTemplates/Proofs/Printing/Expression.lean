import InlineTemplates.Proofs.Printing.Spliced

/-! # Expressions with swapped parts in print

One statement for each rule of the printer. Their proofs have the shape of the rules: an `append`
for each `++`, the parts' own statements where their code goes, and `refl` for what stands between. -/

namespace InlineTemplates.Script

/-- Expressions whose parts stand in a row, however many there are. -/
def ExprKind.isRow : ExprKind → Bool
  | .array | .object | .sequence => true
  | _ => false

def StmtKind.isRow : StmtKind → Bool
  | .block | .var _ _ | .using _ | .namespace _ _ => true
  | _ => false

def TypeKind.isRow : TypeKind → Bool
  | .object | .tuple | .union | .intersection => true
  | _ => false

def PartKind.isRow : PartKind → Bool
  | .typeParams | .typeArgs | .interfaceBody | .moduleBlock => true
  | _ => false

namespace Style

open Doc (Spliced)
open Printed (Alike)

variable {s : Style} {swaps : Doc → Doc → Prop} {p q a a' b b' c c' d d' : Printed}
  {ps qs : List Printed}

/-! ## Functions, statements and templates -/

theorem typeAfter_alike (h : Alike s swaps p q) : Spliced swaps (s.typeAfter p) (s.typeAfter q) :=
  h.led _ h.code

theorem parameters_alike (parent : Span) (h : List.Forall₂ (Alike s swaps) ps qs) :
    Spliced swaps (s.parameters parent ps) (s.parameters parent qs) :=
  ((Spliced.refl _).append (list_of_parts _ _ h fun _ _ h => h.code)).append (.refl _)

theorem indexSignature_alike (span : Span) (readonly : Bool) {type type' : Printed}
    (hps : List.Forall₂ (Alike s swaps) p.parts q.parts) (ht : Alike s swaps type type') :
    Spliced swaps (s.indexSignature span readonly p type)
      (s.indexSignature span readonly q type') := by
  have hparams := list_of_parts (s := s) .commas span hps fun _ _ h => h.code
  exact .append (.append (.append (.refl _) hparams) (.refl _)) (typeAfter_alike ht)

theorem functionRest_alike (h : Alike s swaps p q) :
    Spliced swaps (s.functionRest p) (s.functionRest q) := by
  have hparts := h.parts
  have hspan := h.span_eq
  obtain ⟨⟨kind, span, ts⟩, d, ps⟩ := p
  obtain ⟨⟨kind', span', us⟩, d', qs⟩ := q
  obtain rfl : span = span' := hspan
  simp only [Printed.parts] at hparts
  rcases hparts with _ | ⟨ha, _ | ⟨hbody, _ | ⟨htp, _ | ⟨htype, _ | _⟩⟩⟩⟩
  · exact .refl _
  · exact .refl _
  · exact .refl _
  · exact .refl _
  · have hlist := parameters_alike span ha.parts
    simp only [functionRest, hbody.isAbsent_eq]
    exact .append (.append (.append htp.code hlist) (typeAfter_alike htype))
      (.ite (.refl _) (.append (.refl _) hbody.code))
  · exact .refl _

theorem functionForm_eq (h : Alike s swaps p q) : functionForm p = functionForm q := by
  unfold functionForm
  exact h.by_kind (fun _ => rfl) (fun _ => rfl) fun _ => rfl

theorem functionHead_alike (star : Doc) {f f' : Printed} (h : Alike s swaps p q)
    (hf : Alike s swaps f f') : Spliced swaps (functionHead star p f) (functionHead star q f') := by
  rw [functionHead, functionHead, functionForm_eq hf]
  exact .append (.refl _) (h.led _ h.code)

theorem statement_alike (h : Alike s swaps p q) :
    Spliced swaps (s.statement p) (s.statement q) := by
  unfold statement
  refine h.by_kind (fun _ => rfl) (fun _ => rfl) fun kind => ?_
  split
  · exact h.code
  · rw [h.after]
    exact .append (.append (.append h.code (.refl _)) (.refl _)) (.refl _)
  · exact h.whole.append (.refl _)

theorem block_alike (span : Span) (h : List.Forall₂ (Alike s swaps) ps qs) :
    Spliced swaps (s.block span ps) (s.block span qs) := by
  have hlist := list_of_parts .statements span h fun _ _ => statement_alike
  simp only [block, isEmpty_eq h]
  exact .append (.append (.append (.refl _) (.ite (.refl _) hlist)) (.refl _)) (.refl _)

theorem interleaved_alike {quasi inner : Printed → Doc}
    (hquasi : ∀ p q, Alike s swaps p q → quasi p = quasi q)
    (hinner : ∀ p q, Alike s swaps p q → Spliced swaps (inner p) (inner q))
    {es es' : List Printed} (hqs : List.Forall₂ (Alike s swaps) ps qs)
    (hes : List.Forall₂ (Alike s swaps) es es') :
    Spliced swaps (interleaved quasi inner ps es) (interleaved quasi inner qs es') := by
  induction hqs generalizing es es' with
  | nil =>
    cases hes <;> exact .refl _
  | @cons p q ps qs hpq hrest ih =>
    cases hes with
    | nil =>
      have hflat := flatMap_of_parts (f := quasi) (.cons hpq hrest) fun p q h =>
        hquasi p q h ▸ .refl _
      exact hflat
    | cons he hothers =>
      rw [interleaved, interleaved, hquasi p q hpq]
      exact .append (.append (.append (.append (.refl _) (.refl _)) (hinner _ _ he)) (.refl _))
        (ih hothers)

theorem quasi_eq (h : Alike s swaps p q) : s.quasi p = s.quasi q := by
  unfold quasi
  exact h.by_kind (fun _ => rfl) (fun _ => rfl) fun _ => rfl

theorem taggedQuasi_eq (h : Alike s swaps p q) : taggedQuasi p = taggedQuasi q := by
  unfold taggedQuasi
  exact h.by_kind (fun _ => rfl) (fun _ => rfl) fun _ => rfl

theorem template_alike {inner : Printed → Doc}
    (hinner : ∀ p q, Alike s swaps p q → Spliced swaps (inner p) (inner q))
    {quasis quasis' : Printed} (h : Alike s swaps p q) (hq : Alike s swaps quasis quasis') :
    Spliced swaps (s.template inner p quasis) (s.template inner q quasis') := by
  have hbody := interleaved_alike (s := s) (fun _ _ => quasi_eq) hinner hq.parts h.parts
  exact .append (.append (.refl _) hbody) (.refl _)

theorem taggedTemplate_alike (h : Alike s swaps p q) :
    Spliced swaps (taggedTemplate p) (taggedTemplate q) := by
  have hps := h.parts
  have hspan := h.span_eq
  obtain ⟨⟨kind, span, ts⟩, d, ps⟩ := p
  obtain ⟨⟨kind', span', us⟩, d', qs⟩ := q
  obtain rfl : span = span' := hspan
  simp only [Printed.parts] at hps
  rcases hps with _ | ⟨he, _ | ⟨hq, _ | _⟩⟩
  · exact .refl _
  · exact .refl _
  · have hbody := interleaved_alike (s := s) (fun _ _ => taggedQuasi_eq) (fun _ _ h => h.whole)
      hq.parts he.parts
    exact .append (.append (.refl _) hbody) (.refl _)
  · exact .refl _

/-! ## Expressions -/

/-- Whether a callee of this kind and with so many parts keeps no place for comments after it. -/
def bareCallee : Kind → Nat → Bool
  | .expr (.new true), n => n == 3
  | .expr (.new false), _ | .part _, _ => true
  | _, _ => false

theorem callee_eq (hs : s.dense = false) (p : Printed) :
    s.callee p = if bareCallee p.kind p.parts.length then p.code else p.whole := by
  unfold callee
  split
  · next hkind hparts => simp [hkind, hparts, bareCallee, hs]
  · next hkind => simp [hkind, bareCallee]
  · next hkind => simp [hkind, bareCallee]
  · next hbare hpart hnew =>
    have hfalse : bareCallee p.kind p.parts.length = false := by
      unfold bareCallee
      split
      · next hkind =>
        rw [beq_eq_false_iff_ne]
        intro hlen
        obtain ⟨a, b, c, habc⟩ := List.length_eq_three.mp hlen
        exact hnew a b c hkind habc
      · next hkind => exact absurd hkind hbare
      · next hkind => exact absurd hkind (hpart _)
      · rfl
    rw [hfalse]
    rfl

theorem callee_alike (hs : s.dense = false) (h : Alike s swaps p q) :
    Spliced swaps (s.callee p) (s.callee q) := by
  have hbare : bareCallee p.kind p.parts.length = bareCallee q.kind q.parts.length := by
    rw [h.parts.length_eq]
    exact h.by_kind (fun _ => rfl) (fun _ => rfl) fun _ => rfl
  rw [callee_eq hs, callee_eq hs, hbare]
  exact .ite h.code h.whole

theorem dotted_alike (h : Alike s swaps p q) : Spliced swaps (dotted p) (dotted q) := by
  rw [dotted, dotted, h.span_eq]
  exact .append (.refl _) h.code

theorem member_alike (hs : s.dense = false) {prop prop' : Printed} (h : Alike s swaps p q)
    (hprop : Alike s swaps prop prop') : Spliced swaps (s.member p prop) (s.member q prop') := by
  unfold member
  refine h.by_kind (fun _ => rfl) (fun _ => rfl) fun kind => ?_
  split
  · rw [hprop.span_eq]
    exact .append (.append h.code (.refl _)) (dotted_alike hprop)
  · exact .append (callee_alike hs h) (dotted_alike hprop)

theorem index_alike (hs : s.dense = false) {prop prop' : Printed} (h : Alike s swaps p q)
    (hprop : Alike s swaps prop prop') : Spliced swaps (s.index p prop) (s.index q prop') := by
  unfold index
  refine h.by_kind (fun _ => rfl) (fun _ => rfl) fun kind => ?_
  split
  · exact .append h.code hprop.code
  · exact .append (callee_alike hs h) hprop.code

theorem arguments_alike (span : Span) (h : List.Forall₂ (Alike s swaps) ps qs) :
    Spliced swaps (s.arguments span ps) (s.arguments span qs) :=
  .append (.append (.refl _) (list_of_parts _ _ h fun _ _ h => h.whole)) (.refl _)

theorem chain_alike (hs : s.dense = false) (optional : Bool) (span : Span) (h : Alike s swaps p q) :
    Spliced swaps (s.chain optional span p) (s.chain optional span q) := by
  have hparts := h.parts
  have hroot := h.root
  obtain ⟨⟨kind, span, ts⟩, d, ps⟩ := p
  obtain ⟨⟨kind', span', us⟩, d', qs⟩ := q
  rcases hroot with hkind | ⟨hp, hq⟩
  · obtain rfl : kind = kind' := hkind
    cases kind with
    | expr k =>
      cases k with
      | member =>
        rcases hparts with _ | ⟨hobj, _ | ⟨hprop, _ | _⟩⟩
        · exact .refl _
        · exact .refl _
        · exact .append (.append (callee_alike hs hobj) (.refl _)) hprop.code
        · exact .refl _
      | index =>
        rcases hparts with _ | ⟨hobj, _ | ⟨hprop, _ | _⟩⟩
        · exact .refl _
        · exact .refl _
        · exact .append (.append (callee_alike hs hobj) (.refl _)) hprop.code
        · exact .refl _
      | chainCall =>
        rcases hparts with _ | ⟨hcallee, _ | ⟨hlist, _ | ⟨htypes, _ | _⟩⟩⟩
        · exact .refl _
        · exact .refl _
        · exact .refl _
        · exact .append (.append hcallee.whole (.refl _)) (arguments_alike span hlist.parts)
        · exact .refl _
      | _ => exact .refl _
    | _ => exact .refl _
  · rcases Kind.of_isApplied hp with hk | hk <;> rcases Kind.of_isApplied hq with hk' | hk' <;>
      obtain rfl : kind = _ := hk <;> obtain rfl : kind' = _ := hk' <;> exact .refl _

theorem array_alike (span : Span) (h : List.Forall₂ (Alike s swaps) ps qs) :
    Spliced swaps (s.array span ps) (s.array span qs) := by
  have hlast : ps.getLast?.map Printed.isAbsent = qs.getLast?.map Printed.isAbsent := by
    rw [← List.getLast?_map, ← List.getLast?_map, map_eq h fun _ _ h => h.isAbsent_eq]
  simp only [array, hlast]
  refine .append (.append (.refl _) (list_of_parts _ _ h fun p q hpq => ?_)) (.refl _)
  rw [hpq.isAbsent_eq]
  refine .ite (.refl _) ?_
  refine hpq.by_kind (fun _ => rfl) (fun _ => rfl) fun kind => ?_
  split
  · exact hpq.code
  · exact hpq.whole

theorem object_alike (span : Span) (h : List.Forall₂ (Alike s swaps) ps qs) :
    Spliced swaps (s.object span ps) (s.object span qs) := by
  simp only [object, isEmpty_eq h]
  exact .append (.append (.refl _) (.ite (.refl _) (list_of_parts _ _ h fun _ _ h => h.code)))
    (.refl _)

theorem isParted_of_no_comments (hs : s.comments = []) : ∀ t : Tree, s.isParted t = false
  | .node (.expr k) span [] => by
    cases k <;> simp [isParted, hs, Comments.on, hasLeading]
  | .node (.expr k) span (t :: ts) => by
    have ih := isParted_of_no_comments hs t
    cases k <;> simp [isParted, hs, Comments.on, hasLeading, ih]
  | .node .absent _ _ | .node .list _ _ | .node (.module _) _ _ | .node (.pat _) _ _
  | .node (.stmt _) _ _ | .node (.item _) _ _ | .node (.type _) _ _ | .node (.typeElement _) _ _
  | .node (.member _) _ _ | .node (.prop _) _ _ | .node (.part _) _ _ => rfl

/-- Parentheses around an argument change the text before and behind its code. -/
theorem parens_alike (hs : s.dense = false) (htexts : Doc.SwapsTexts swaps) (word : Bool)
    (h : Alike s swaps p q) :
    Spliced swaps (lit "(" ++ p.whole ++ lit ")") (s.gapIf word ++ q.whole) ∧
      Spliced swaps (s.gapIf word ++ p.whole) (lit "(" ++ q.whole ++ lit ")") := by
  have hgap : s.gapIf word = [.text [' ']] := by cases word <;> simp [gapIf, gap, hs]
  have hopen : swaps (lit "(") (s.gapIf word) ∧ swaps (s.gapIf word) (lit "(") := by
    rw [hgap]
    exact ⟨htexts _ _ (List.cons_ne_nil _ _) (List.cons_ne_nil _ _) rfl,
      htexts _ _ (List.cons_ne_nil _ _) (List.cons_ne_nil _ _) rfl⟩
  have hclose : swaps (p.after ++ lit ")") q.after ∧ swaps p.after (q.after ++ lit ")") := by
    rw [h.after]
    exact ⟨htexts _ _ (List.cons_ne_nil _ _) (List.cons_ne_nil _ _) rfl,
      htexts _ _ (List.cons_ne_nil _ _) (List.cons_ne_nil _ _) rfl⟩
  simp only [Printed.whole, List.append_assoc]
  exact ⟨.append (.of_swaps hopen.1) (.append h.code (.of_swaps hclose.1)),
    .append (.of_swaps hopen.2) (.append h.code (.of_swaps hclose.2))⟩

theorem operand_alike (hs : s.dense = false) (hparens : s.comments = [] ∨ Doc.SwapsTexts swaps)
    (word word' : Bool) (h : Alike s swaps p q) :
    Spliced swaps (s.operand word p) (s.operand word' q) := by
  have hbare : Spliced swaps (s.gapIf word ++ p.whole) (s.gapIf word' ++ q.whole) :=
    .append (gapIf_spliced hs _ _) h.whole
  rcases hparens with hnone | htexts
  · simpa only [operand, isParted_of_no_comments hnone, Bool.false_eq_true, if_false] using hbare
  · unfold operand
    split <;> split
    · exact .append (.append (.refl _) h.whole) (.refl _)
    · exact (parens_alike hs htexts word' h).1
    · exact (parens_alike hs htexts word h).2
    · exact hbare

theorem binary_alike (hs : s.dense = false) (op : BinaryOp) {r r' : Printed} (h : Alike s swaps p q)
    (hr : Alike s swaps r r') : Spliced swaps (s.binary op p r) (s.binary op q r') :=
  .append (.append (.append (.append h.whole (gapIf_spliced hs _ _)) (.refl _))
    (gapIf_spliced hs _ _)) hr.whole

theorem arrow_alike (hs : s.dense = false) (async isBlock : Bool) (span : Span)
    {body body' typeParams typeParams' type type' : Printed} (h : Alike s swaps p q)
    (hbody : Alike s swaps body body')
    (htp : Alike s swaps typeParams typeParams') (htype : Alike s swaps type type') :
    Spliced swaps (s.arrow async isBlock span p body typeParams type)
      (s.arrow async isBlock span q body' typeParams' type') := by
  have hlist := list_of_parts .commas span h.parts fun _ _ h => h.whole
  have hresult := htype.led (lit ":" ++ s.gap) (f := fun t => t.code ++ s.gap)
    (g := fun t => t.code ++ s.gap) (.append htype.code (.refl _))
  have hinner : Spliced swaps (if isBlock then body.code else [.indent] ++ body.whole ++ [.dedent])
      (if isBlock then body'.code else [.indent] ++ body'.whole ++ [.dedent]) :=
    .ite hbody.code (.append (.append (.refl _) hbody.whole) (.refl _))
  simp only [arrow, hs, Bool.not_false, Bool.true_or, if_true]
  refine .append (.append (.append (.append (.append (.append (.append ?_ htp.code) (.refl _))
    hlist) (.refl _)) hresult) (.refl _)) hinner
  exact .ite (.append (.refl _) (gapIf_spliced hs _ _)) (.refl _)

theorem codeAt_alike (h : List.Forall₂ (Alike s swaps) ps qs) (i : Nat) :
    Spliced swaps ((ps[i]?.map (·.code)).getD []) ((qs[i]?.map (·.code)).getD []) := by
  induction h generalizing i with
  | nil => exact .refl _
  | cons hpq _ ih =>
    cases i with
    | zero => exact hpq.code
    | succ i => simpa using ih i

theorem classHead_alike {body body' : Printed} (h : Alike s swaps p q)
    (hbody : Alike s swaps body body') :
    Spliced swaps (s.classHead p body) (s.classHead q body') := by
  have hcode := h.code.append (codeAt_alike hbody.parts 2)
  unfold classHead
  refine .append (.append ?_ (.refl _)) (h.led space hcode)
  exact hbody.by_kind (fun _ => rfl) (fun _ => rfl) fun _ => .refl _

theorem classRest_alike (hs : s.dense = false) (h : Alike s swaps p q) :
    Spliced swaps (s.classRest p) (s.classRest q) := by
  have hps := h.parts
  have hspan := h.span_eq
  obtain ⟨⟨kind, span, ts⟩, d, ps⟩ := p
  obtain ⟨⟨kind', span', us⟩, d', qs⟩ := q
  obtain rfl : span = span' := hspan
  simp only [Printed.parts] at hps
  rcases hps with _ | ⟨hmembers, _ | ⟨hparent, _ | ⟨_, _ | ⟨hargs, _ | ⟨himplemented, _ | _⟩⟩⟩⟩⟩
  · exact .refl _
  · exact .refl _
  · exact .refl _
  · exact .refl _
  · exact .refl _
  · have hlist := list_of_parts .members span hmembers.parts fun _ _ h => h.code
    have hpromised := list_of_parts .commas span himplemented.parts fun _ _ h => h.code
    simp only [classRest, isEmpty_eq himplemented.parts]
    refine .append (.append (.append (.append (.append (hparent.led _ ?_) ?_) (.refl _)) (.refl _))
      hlist) (.refl _)
    · exact .append (.append (gapIf_spliced hs _ _) hparent.whole) hargs.code
    · exact .ite (.refl _) (.append (.refl _) hpromised)
  · exact .refl _

theorem sequence_alike (h : List.Forall₂ (Alike s swaps) ps qs) :
    Spliced swaps ((lit "," ++ s.gap).intercalate (ps.map Printed.whole))
      ((lit "," ++ s.gap).intercalate (qs.map Printed.whole)) := by
  refine .intercalate _ ?_
  rw [List.forall₂_map_left_iff, List.forall₂_map_right_iff]
  exact h.imp fun _ _ h => h.whole

theorem exprRow_alike (span : Span) (k : ExprKind) (hk : k.isRow = true)
    (h : List.Forall₂ (Alike s swaps) ps qs) :
    Spliced swaps (s.expression span k ps) (s.expression span k qs) := by
  cases k with
  | array => exact array_alike span h
  | object => exact object_alike span h
  | sequence => exact sequence_alike h
  | _ => cases hk

theorem expression_one (hs : s.dense = false) (hparens : s.comments = [] ∨ Doc.SwapsTexts swaps)
    (span : Span) (k : ExprKind) (ha : Alike s swaps a a') :
    Spliced swaps (s.expression span k [a]) (s.expression span k [a']) := by
  cases k with
  | unary op =>
    have hblank :
        !op.isWord → Tree.needsBlankUnder op a.tree = Tree.needsBlankUnder op a'.tree := by
      intro hop
      simp only [Bool.not_eq_true'] at hop
      simp only [Tree.needsBlankUnder, hop, Printed.kind_tree]
      exact ha.by_kind (fun _ => rfl) (fun _ => rfl) fun _ => rfl
    simp only [expression]
    refine .append (.append (.refl _) ?_) ha.whole
    split
    · exact gapIf_spliced hs _ _
    · next hop =>
      rw [hblank (by simpa using hop)]
      exact .refl _
  | update increment prefixed =>
    exact .ite (.append (.refl _) ha.whole) (.append ha.whole (.refl _))
  | «yield» delegate =>
    exact .append (.refl _) (ha.led [] (operand_alike hs hparens _ _ ha))
  | await => exact .append (.refl _) ha.whole
  | paren => exact .append (.append (.refl _) ha.whole) (.refl _)
  | constAssertion => exact .append ha.whole (.refl _)
  | nonNull => exact .append ha.whole (.refl _)
  | chain optional =>
    exact chain_alike hs optional span ha
  | _ => first | exact exprRow_alike span _ rfl (.cons ha .nil) | exact .refl _

theorem expression_two (hs : s.dense = false) (span : Span) (k : ExprKind) (ha : Alike s swaps a a')
    (hb : Alike s swaps b b') :
    Spliced swaps (s.expression span k [a, b]) (s.expression span k [a', b']) := by
  cases k with
  | function => exact .append (functionHead_alike _ ha hb) (functionRest_alike hb)
  | binary op => exact binary_alike hs op ha hb
  | assign op =>
    exact .append (.append (.append (.append ha.code (.refl _)) (.refl _)) (.refl _)) hb.whole
  | member => exact member_alike hs ha hb
  | superMember => exact .append ha.code (dotted_alike hb)
  | index => exact index_alike hs ha hb
  | superIndex => exact .append ha.code hb.code
  | template => exact template_alike (fun _ _ h => h.whole) ha hb
  | classExpr => exact .append (classHead_alike ha hb) (classRest_alike hs hb)
  | tagMember => exact .append (.append ha.code (.refl _)) hb.code
  | tagNamespaced => exact .append (.append ha.code (.refl _)) hb.code
  | typeAssertion => exact .append (.append (.append (.refl _) hb.code) (.refl _)) ha.whole
  | instantiation => exact .append ha.whole hb.code
  | asType => exact .append (.append ha.whole (.refl _)) hb.code
  | satisfies => exact .append (.append ha.whole (.refl _)) hb.code
  | _ => first | exact exprRow_alike span _ rfl (.cons ha (.cons hb .nil)) | exact .refl _

theorem expression_three (hs : s.dense = false) (span : Span) (k : ExprKind)
    (ha : Alike s swaps a a') (hb : Alike s swaps b b') (hc : Alike s swaps c c') :
    Spliced swaps (s.expression span k [a, b, c]) (s.expression span k [a', b', c']) := by
  cases k with
  | conditional =>
    exact .append (.append (.append (.append (.append (.append (.append (.append ha.whole (.refl _))
      (.refl _)) (.refl _)) hb.whole) (.refl _)) (.refl _)) (.refl _)) hc.whole
  | call => exact .append (.append (callee_alike hs ha) hc.code) (arguments_alike span hb.parts)
  | new withArgs =>
    simp only [expression, hs, Bool.false_and, Bool.not_false, Bool.and_true]
    exact .append (.append (.append (.append (.refl _) (gapIf_spliced hs _ _)) ha.whole) hc.code)
      (.ite (arguments_alike span hb.parts) (.refl _))
  | tagged => exact .append (.append (callee_alike hs ha) hb.code) (taggedTemplate_alike hc)
  | element =>
    exact .append (.append ha.code (flatMap_of_parts hb.parts fun _ _ h => h.code)) hc.code
  | fragment =>
    exact .append (.append ha.code (flatMap_of_parts hb.parts fun _ _ h => h.code)) hc.code
  | _ =>
    first
    | exact exprRow_alike span _ rfl (.cons ha (.cons hb (.cons hc .nil)))
    | exact .refl _

theorem expression_four (hs : s.dense = false) (span : Span) (k : ExprKind)
    (ha : Alike s swaps a a') (hb : Alike s swaps b b') (hc : Alike s swaps c c')
    (hd : Alike s swaps d d') :
    Spliced swaps (s.expression span k [a, b, c, d]) (s.expression span k [a', b', c', d']) := by
  cases k with
  | arrow async isBlock => exact arrow_alike hs async isBlock span ha hb hc hd
  | _ =>
    first
    | exact exprRow_alike span _ rfl (.cons ha (.cons hb (.cons hc (.cons hd .nil))))
    | exact .refl _

theorem expression_alike (hs : s.dense = false) (hparens : s.comments = [] ∨ Doc.SwapsTexts swaps)
    (span : Span) (k : ExprKind) (h : List.Forall₂ (Alike s swaps) ps qs) :
    Spliced swaps (s.expression span k ps) (s.expression span k qs) := by
  have hall := h
  rcases h with _ | ⟨ha, _ | ⟨hb, _ | ⟨hc, _ | ⟨hd, _ | _⟩⟩⟩⟩
  · exact .refl _
  · exact expression_one hs hparens span k ha
  · exact expression_two hs span k ha hb
  · exact expression_three hs span k ha hb hc
  · exact expression_four hs span k ha hb hc hd
  · cases k <;> first | exact exprRow_alike span _ rfl hall | exact .refl _

end Style
end InlineTemplates.Script
