import InlineTemplates.Proofs.Printing.Expression

/-! # Statements and classes with swapped parts in print -/

namespace InlineTemplates.Script

namespace Style

open Doc (Spliced)
open Printed (Alike)

variable {s : Style} {swaps : Doc → Doc → Prop} {p q a a' b b' c c' d d' : Printed}
  {ps qs : List Printed}

/-! ## Patterns and properties -/

theorem pattern_alike (span : Span) (k : PatKind) (h : List.Forall₂ (Alike s swaps) ps qs) :
    Spliced swaps (s.pattern span k ps) (s.pattern span k qs) := by
  rcases h with _ | ⟨ha, _ | ⟨hb, _ | _⟩⟩
  · cases k <;> exact .refl _
  · cases k with
    | name n optional => exact .append (.refl _) (typeAfter_alike ha)
    | _ => exact .refl _
  · cases k with
    | array optional =>
      have hform : ∀ p q, Alike s swaps p q →
          Spliced swaps (if p.isAbsent then [] else p.whole)
            (if q.isAbsent then [] else q.whole) := by
        intro p q h
        rw [h.isAbsent_eq]
        exact .ite (.refl _) h.whole
      have hlist := list_of_parts .arrayPattern span ha.parts hform
      exact .append (.append (.append (.append (.refl _) hlist) (.refl _)) (.refl _))
        (hb.led _ hb.code)
    | object optional =>
      have hlist := list_of_parts .objectPattern span ha.parts
        fun _ _ h => h.code
      exact .append (.append (.append (.append (.refl _) hlist) (.refl _)) (.refl _))
        (hb.led _ hb.code)
    | rest => exact .append (.append (.refl _) ha.whole) (typeAfter_alike hb)
    | default =>
      exact .append (.append (.append (.append ha.whole (.refl _)) (.refl _)) (.refl _)) hb.whole
    | keyValue => exact .append (.append (.append ha.code (.refl _)) (.refl _)) hb.whole
    | shorthand => exact .append ha.code (hb.led _ hb.whole)
    | _ => exact .refl _
  · cases k <;> exact .refl _

theorem accessorKey_alike (hs : s.dense = false) (word : String) (h : Alike s swaps p q) :
    Spliced swaps (s.accessorKey word p) (s.accessorKey word q) :=
  .append (.append (.refl _) (gapIf_spliced hs _ _)) h.code

theorem functionMarks_eq (h : Alike s swaps p q) : functionMarks p = functionMarks q := by
  rw [functionMarks, functionMarks, functionForm_eq h]

theorem property_alike (hs : s.dense = false) (k : PropKind)
    (h : List.Forall₂ (Alike s swaps) ps qs) :
    Spliced swaps (s.property k ps) (s.property k qs) := by
  rcases h with _ | ⟨ha, _ | ⟨hb, _ | ⟨hc, _ | ⟨hd, _ | _⟩⟩⟩⟩
  · cases k <;> exact .refl _
  · cases k <;> exact .refl _
  · cases k with
    | keyValue => exact .append (.append (.append ha.code (.refl _)) (.refl _)) hb.whole
    | assign => exact .append (.append ha.code (.refl _)) hb.whole
    | method =>
      exact .append (.append (.append (.of_eq (functionMarks_eq hb)) ha.code) (.refl _))
        (functionRest_alike hb)
    | _ => exact .refl _
  · cases k with
    | getter =>
      exact .append (.append (.append (.append (accessorKey_alike hs _ ha) (.refl _)) (.refl _))
        (.refl _)) hc.code
    | _ => exact .refl _
  · cases k with
    | setter =>
      have hthis := hb.led [] (f := fun p => p.whole ++ lit "," ++ s.gap)
        (g := fun p => p.whole ++ lit "," ++ s.gap) (.append (.append hb.whole (.refl _)) (.refl _))
      exact .append (.append (.append (.append (.append (.append (accessorKey_alike hs _ ha)
        (.refl _)) (.refl _)) hthis) hc.whole) (.refl _)) hd.code
    | _ => exact .refl _
  · cases k <;> exact .refl _

theorem tagPart_alike (span : Span) (k : PartKind) (h : List.Forall₂ (Alike s swaps) ps qs) :
    Spliced swaps (s.tagPart span k ps) (s.tagPart span k qs) := by
  rcases h with _ | ⟨ha, _ | ⟨hb, _ | ⟨hc, _ | _⟩⟩⟩
  · cases k <;> exact .refl _
  · cases k with
    | closing => exact .append (.append (.refl _) ha.code) (.refl _)
    | tagAttributeSpread => exact .append (.append (.refl _) ha.whole) (.refl _)
    | exprContainer => exact .append (.append (.refl _) ha.whole) (.refl _)
    | spreadChild => exact .append (.append (.refl _) ha.whole) (.refl _)
    | _ => exact .refl _
  · cases k with
    | tagAttribute => exact .append ha.code (hb.led _ hb.code)
    | _ => exact .refl _
  · cases k with
    | opening selfClosing =>
      have hattributes := hb.parts
      have hlist := list_of_parts { delimiter := none, dropsComments := true } span hattributes
        fun _ _ h => h.code
      simp only [tagPart, isEmpty_eq hattributes]
      exact .append (.append (.append (.append (.append (.refl _) ha.code) hc.code)
        (.ite (.refl _) (.append (.refl _) hlist))) (.refl _)) (.refl _)
    | _ => exact .refl _
  · cases k <;> exact .refl _

/-! ## Statements -/

theorem declarators_alike (span : Span) (h : List.Forall₂ (Alike s swaps) ps qs) :
    Spliced swaps (s.declarators span ps) (s.declarators span qs) :=
  list_of_parts _ _ h fun _ _ h => h.code

theorem jump_alike (word : String) (h : Alike s swaps p q) :
    Spliced swaps (jump word p) (jump word q) :=
  .append (.append (.refl _) (h.led _ h.code)) (.refl _)

theorem loopHead_alike (h : Alike s swaps p q) : Spliced swaps (loopHead p) (loopHead q) := by
  unfold loopHead
  refine h.by_kind (fun _ => rfl) (fun _ => rfl) fun kind => ?_
  split
  · exact h.code
  · exact h.whole

theorem declaration_alike (h : Alike s swaps p q) :
    Spliced swaps (declaration p) (declaration q) := by
  unfold declaration
  refine h.by_kind (fun _ => rfl) (fun _ => rfl) fun kind => ?_
  split
  · exact .append h.code (.refl _)
  · exact h.code

theorem forEach_alike (hs : s.dense = false) (word : String) (ha : Alike s swaps a a')
    (hb : Alike s swaps b b') (hc : Alike s swaps c c') :
    Spliced swaps (s.forEach word a b c) (s.forEach word a' b' c') :=
  .append (.append (.append (.append (.append (.append (.append (.refl _) (loopHead_alike ha))
    (gapIf_spliced hs _ _)) (.refl _)) (gapIf_spliced hs _ _)) hb.whole) (.refl _))
    (statement_alike hc)

theorem namespaceRest_last {kind : Kind} {span span' : Span} {ts us : List Tree}
    {declare global : Bool} {code code' : Doc} {name : Printed}
    (hkind : ∀ d g, kind ≠ .stmt (.namespace d g)) :
    s.namespaceRest (.mk (.node (.stmt (.namespace declare global)) span ts) code
        [name, .mk (.node kind span' us) code' ps]) =
      name.code ++ (Printed.mk (.node kind span' us) code' ps).led s.gap (·.code) := by
  have hled : (Printed.mk (.node kind span' us) code' ps).led s.gap (·.code) =
      if (Tree.node kind span' us).isAbsent then [] else s.gap ++ code' := rfl
  rw [hled, namespaceRest]
  intro d g _ _ heq
  cases heq
  exact hkind d g rfl

theorem namespaceRest_alike {declare global : Bool} {span : Span} {ts us : List Tree}
    {code code' : Doc} :
    ∀ {ps qs : List Printed}, List.Forall₂ (Alike s swaps) ps qs →
    Spliced swaps
      (s.namespaceRest (.mk (.node (.stmt (.namespace declare global)) span ts) code ps))
      (s.namespaceRest (.mk (.node (.stmt (.namespace declare global)) span us) code' qs))
  | _, _, .nil => .refl _
  | _, _, .cons _ .nil => .refl _
  | _, _, .cons _ (.cons _ (.cons _ _)) => .refl _
  | [_, .mk (.node kind span₁ _) _ ps], [_, .mk (.node kind' span₂ _) _ qs],
      .cons hname (.cons hbody .nil) => by
    have hlast := hbody.led s.gap (f := (·.code)) (g := (·.code)) hbody.code
    have hparts : List.Forall₂ (Alike s swaps) ps qs := hbody.parts
    have hroot := hbody.root
    have hspan := hbody.span_eq
    by_cases hkind : ∃ d g, kind = .stmt (.namespace d g)
    · obtain ⟨d, g, rfl⟩ := hkind
      obtain rfl : span₁ = span₂ := hspan
      obtain rfl : Kind.stmt (.namespace d g) = kind' := by
        rcases hroot with hroot | ⟨hroot, -⟩
        · exact hroot
        · cases hroot
      exact .append hname.code (.append (.refl _) (namespaceRest_alike hparts))
    · have hother : ∀ d g, kind' ≠ .stmt (.namespace d g) := by
        rintro d g rfl
        rcases hroot with hroot | ⟨-, hroot⟩
        · exact hkind ⟨d, g, hroot⟩
        · cases hroot
      rw [namespaceRest_last fun d g h => hkind ⟨d, g, h⟩, namespaceRest_last hother]
      exact .append hname.code hlast
termination_by ps => sizeOf ps

theorem variables_alike (hs : s.dense = false) (span : Span) (kind : VarKind) (declare : Bool)
    (h : List.Forall₂ (Alike s swaps) ps qs) :
    Spliced swaps (s.statementCode span (.var kind declare) ps)
      (s.statementCode span (.var kind declare) qs) :=
  .append (.append (.append (.refl _) (.refl _)) (gapIf_spliced hs _ _)) (declarators_alike span h)

theorem namespace_alike (span : Span) (declare global : Bool)
    (h : List.Forall₂ (Alike s swaps) ps qs) :
    Spliced swaps (s.statementCode span (.namespace declare global) ps)
      (s.statementCode span (.namespace declare global) qs) := by
  refine .append (.append (.refl _) ?_) (namespaceRest_alike h)
  refine .ite (.refl _) ?_
  cases h with
  | nil => exact .refl _
  | @cons p q _ _ hpq _ =>
    have hroot := hpq.root
    obtain ⟨⟨kind, _, _⟩, _, _⟩ := p
    obtain ⟨⟨kind', _, _⟩, _, _⟩ := q
    -- The first word goes by the kind of the first name: a string has another one.
    rcases hroot with hkind | ⟨hp, hq⟩
    · obtain rfl : kind = kind' := hkind
      cases kind with
      | part k => cases k <;> exact .refl _
      | _ => exact .refl _
    · rcases Kind.of_isApplied hp with hk | hk <;> rcases Kind.of_isApplied hq with hk' | hk' <;>
        obtain rfl : kind = _ := hk <;> obtain rfl : kind' = _ := hk' <;> exact .refl _

theorem if_alike (hs : s.dense = false) (span : Span) (ha : Alike s swaps a a')
    (hb : Alike s swaps b b') (hc : Alike s swaps c c') :
    Spliced swaps (s.statementCode span .if [a, b, c]) (s.statementCode span .if [a', b', c']) := by
  have hblock : (b.kind == .stmt .block) = (b'.kind == .stmt .block) :=
    hb.by_kind (fun _ => rfl) (fun _ => rfl) fun _ => rfl
  have hno := hc.led ((if b'.kind == .stmt .block then s.gap else []) ++ lit "else")
    (f := fun p => s.gapIf p.tree.stmtStartsWord ++ s.statement p)
    (g := fun p => s.gapIf p.tree.stmtStartsWord ++ s.statement p)
    (.append (gapIf_spliced hs _ _) (statement_alike hc))
  simp only [statementCode, hblock]
  exact .append (.append (.append (.append (.append (.append (.append (.refl _) (.refl _))
    (.refl _)) ha.whole) (.refl _)) (.refl _)) (statement_alike hb)) hno

theorem stmtRow_alike (hs : s.dense = false) (span : Span) (k : StmtKind) (hk : k.isRow = true)
    (h : List.Forall₂ (Alike s swaps) ps qs) :
    Spliced swaps (s.statementCode span k ps) (s.statementCode span k qs) := by
  cases k with
  | block => exact block_alike span h
  | var kind declare => exact variables_alike hs span kind declare h
  | «using» await => exact .append (.refl _) (declarators_alike span h)
  | «namespace» declare global => exact namespace_alike span declare global h
  | _ => cases hk

theorem statementCode_alike (hs : s.dense = false)
    (hparens : s.comments = [] ∨ Doc.SwapsTexts swaps) (span : Span) (k : StmtKind)
    (h : List.Forall₂ (Alike s swaps) ps qs) :
    Spliced swaps (s.statementCode span k ps) (s.statementCode span k qs) := by
  have hall := h
  rcases h with _ | ⟨ha, _ | ⟨hb, _ | ⟨hc, _ | ⟨hd, _ | _⟩⟩⟩⟩
  · exact .refl _
  · cases k with
    | «return» =>
      exact .append (.append (.refl _) (ha.led [] (operand_alike hs hparens _ _ ha))) (.refl _)
    | throw => exact .append (.append (.refl _) (operand_alike hs hparens _ _ ha)) (.refl _)
    | «break» => exact jump_alike _ ha
    | «continue» => exact jump_alike _ ha
    | expr => exact .append ha.whole (.refl _)
    | _ => first | exact stmtRow_alike hs span _ rfl hall | exact .refl _
  · cases k with
    | «with» =>
      exact .append (.append (.append (.refl _) ha.whole) (.refl _)) (statement_alike hb)
    | labelled => exact .append (.append (.append ha.code (.refl _)) (.refl _)) (statement_alike hb)
    | switch =>
      have hcases := list_of_parts .statements span hb.parts
        fun _ _ h => h.code
      exact .append (.append (.append (.append (.refl _) ha.whole) (.refl _)) hcases) (.refl _)
    | «while» =>
      exact .append (.append (.append (.refl _) ha.whole) (.refl _)) (statement_alike hb)
    | doWhile =>
      exact .append (.append (.append (.append (.append (.append (.append (.refl _)
        (gapIf_spliced hs _ _)) (statement_alike hb)) (.refl _)) (.refl _)) (.refl _)) ha.whole)
        (.refl _)
    | function declare =>
      exact .append (.append (.refl _) (functionHead_alike _ ha hb))
        (functionRest_alike hb)
    | classDecl declare =>
      exact .append (.append (.refl _) (classHead_alike ha hb))
        (classRest_alike hs hb)
    | enum declare const =>
      have hmembers := list_of_parts .enumMembers span hb.parts
        fun _ _ h => h.code
      exact .append (.append (.append (.append (.append (.refl _) ha.code) (.refl _)) (.refl _))
        hmembers) (.refl _)
    | _ => first | exact stmtRow_alike hs span _ rfl hall | exact .refl _
  · cases k with
    | «if» => exact if_alike hs span ha hb hc
    | «try» =>
      exact .append (.append (.append (.refl _) ha.code) (hb.led _ hb.code)) (hc.led _ hc.code)
    | forIn => exact .append (.refl _) (forEach_alike hs _ ha hb hc)
    | forOf await => exact .append (.refl _) (forEach_alike hs _ ha hb hc)
    | typeAlias declare =>
      exact .append (.append (.append (.append (.append (.append (.append (.refl _) ha.code)
        hb.code) (.refl _)) (.refl _)) (.refl _)) hc.code) (.refl _)
    | _ => first | exact stmtRow_alike hs span _ rfl hall | exact .refl _
  · cases k with
    | «for» =>
      exact .append (.append (.append (.append (.append (.append (.append (.refl _)
        (ha.led _ (loopHead_alike ha))) (.refl _)) (hb.led _ hb.whole)) (.refl _))
        (hc.led _ hc.whole)) (.refl _)) (statement_alike hd)
    | interface declare =>
      have hparents := hc.parts
      have hlist := list_of_parts .commas span hparents fun _ _ h => h.code
      simp only [statementCode, isEmpty_eq hparents]
      exact .append (.append (.append (.append (.append (.refl _) ha.code) hb.code)
        (.ite (.refl _) (.append (.refl _) hlist))) (.refl _)) hd.code
    | _ => first | exact stmtRow_alike hs span _ rfl hall | exact .refl _
  · cases k <;> first | exact stmtRow_alike hs span _ rfl hall | exact .refl _

/-! ## Members of classes -/

theorem privateMethodHead_alike (kind : MethodKind) (m : Modifiers) {f f' : Printed}
    (h : Alike s swaps p q) (hf : Alike s swaps f f') :
    Spliced swaps (privateMethodHead kind m p f) (privateMethodHead kind m q f') := by
  cases kind with
  | method => exact .append (.append (.refl _) (.of_eq (functionMarks_eq hf))) h.code
  | getter => exact .append (.refl _) h.code
  | setter => exact .append (.refl _) h.code

theorem methodHead_alike (hs : s.dense = false) (kind : MethodKind) (m : Modifiers) {f f' : Printed}
    (h : Alike s swaps p q) (hf : Alike s swaps f f') :
    Spliced swaps (s.methodHead kind m p f) (s.methodHead kind m q f') := by
  simp only [methodHead, functionForm_eq hf]
  refine .append (.append (.append (.append (.append ?_ (.refl _)) (.refl _)) (.refl _)) ?_)
    (.refl _)
  · exact .ite (.append (.refl _) (gapIf_spliced hs _ _)) (.refl _)
  · cases kind with
    | method => exact .append (.refl _) h.code
    | getter => exact accessorKey_alike hs _ h
    | setter => exact accessorKey_alike hs _ h

theorem fieldRest_alike (m : Modifiers) (ha : Alike s swaps a a') (hb : Alike s swaps b b') :
    Spliced swaps (s.fieldRest m a b) (s.fieldRest m a' b') := by
  simp only [fieldRest]
  refine .append (.append (.append (.append (.refl _) (.refl _)) (hb.led _ hb.code))
    (ha.led _ ?_)) (.refl _)
  refine ha.by_kind (fun _ => rfl) (fun _ => rfl) fun kind => ?_
  split
  · exact .append (.append (.refl _) ha.whole) (.refl _)
  · exact ha.whole

theorem classMember_alike (hs : s.dense = false) (span : Span) (k : MemberKind)
    (h : List.Forall₂ (Alike s swaps) ps qs) :
    Spliced swaps (s.classMember span k ps) (s.classMember span k qs) := by
  rcases h with _ | ⟨ha, _ | ⟨hb, _ | ⟨hc, _ | _⟩⟩⟩
  · exact .refl _
  · cases k with
    | staticBlock => exact .append (.refl _) ha.code
    | parameterProperty m => exact .append (.refl _) ha.code
    | _ => exact .refl _
  · cases k with
    | method kind m =>
      exact .append (.append (.append
        (.of_eq (congrArg (fun span : Span => Doc.before span.lo) ha.span_eq)) (.refl _))
        (methodHead_alike hs kind m ha hb)) (functionRest_alike hb)
    | privateMethod kind m =>
      exact .append (privateMethodHead_alike kind m ha hb) (functionRest_alike hb)
    | index readonly static =>
      exact indexSignature_alike span readonly ha.parts hb
    | _ => exact .refl _
  · cases k with
    | constructor m =>
      have hparams := parameters_alike span hb.parts
      simp only [classMember, hc.isAbsent_eq]
      exact .append (.append (.refl _) hparams) (.ite (.refl _) hc.code)
    | property m => exact .append (.append (.refl _) ha.code) (fieldRest_alike m hb hc)
    | privateProperty m => exact .append (.append (.refl _) ha.code) (fieldRest_alike m hb hc)
    | accessor m => exact .append (.append (.refl _) ha.code) (fieldRest_alike m hb hc)
    | _ => exact .refl _
  · cases k <;> exact .refl _

end Style
end InlineTemplates.Script
