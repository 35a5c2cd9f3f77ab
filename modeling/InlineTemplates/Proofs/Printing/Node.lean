import InlineTemplates.Proofs.Printing.Statement

/-! # Modules and types with swapped parts in print -/

namespace InlineTemplates.Script

namespace Style

open Doc (Spliced)
open Printed (Alike)

variable {s : Style} {swaps : Doc → Doc → Prop} {p q a a' b b' c c' d d' : Printed}
  {ps qs : List Printed}

/-! ## Imports and exports -/

theorem renamed_alike (ha : Alike s swaps a a') (hb : Alike s swaps b b') :
    Spliced swaps (renamed a b) (renamed a' b') :=
  .append ha.code (hb.led _ hb.code)

theorem fromModule_alike (ha : Alike s swaps a a') (hb : Alike s swaps b b') :
    Spliced swaps (s.fromModule a b) (s.fromModule a' b') :=
  .append ha.code (hb.led _ hb.code)

def inBraces (p : Printed) : Bool :=
  match p.kind with
  | .part (.importNamed _) => true
  | _ => false

theorem inBraces_eq (h : Alike s swaps p q) : inBraces p = inBraces q := by
  unfold inBraces
  exact h.by_kind (fun _ => rfl) (fun _ => rfl) fun _ => rfl

def outsideBraces (s : Style) (specifiers : List Printed) : Doc :=
  (lit "," ++ s.gap).intercalate ((specifiers.filter fun p => !inBraces p).map (·.code))

theorem importNames_eq (span : Span) (specifiers : List Printed) :
    s.importNames span specifiers =
      if (specifiers.filter inBraces).isEmpty then
        if (s.outsideBraces specifiers).isEmpty then [] else
          s.outsideBraces specifiers ++ lit " from" ++ s.gap
      else
        (if (s.outsideBraces specifiers).isEmpty then [] else
          s.outsideBraces specifiers ++ lit "," ++ s.gap) ++ lit "\x7b" ++
        s.list .names span ((specifiers.filter inBraces).map (·.entry (·.code))) ++ lit "\x7d" ++
        s.gap ++ lit "from" ++ s.gap := rfl

theorem importNames_alike (hne : ∀ d d', swaps d d' → d ≠ [] ∧ d' ≠ [])
    (span : Span) (h : List.Forall₂ (Alike s swaps) ps qs) :
    Spliced swaps (s.importNames span ps) (s.importNames span qs) := by
  have hnamed := filter_alike h fun p q => inBraces_eq
  have hlist := list_of_parts .names span hnamed fun _ _ h => h.code
  have hothers : Spliced swaps (s.outsideBraces ps) (s.outsideBraces qs) :=
    codes_alike _ (filter_alike h fun p q h => congrArg not (inBraces_eq h))
  rw [importNames_eq, importNames_eq, isEmpty_eq hnamed, hothers.isEmpty_eq hne]
  refine .ite (.ite (.refl _) (.append (.append hothers (.refl _)) (.refl _))) ?_
  refine .append (.append (.append (.append (.append (.append ?_ (.refl _)) hlist) (.refl _))
    (.refl _)) (.refl _)) (.refl _)
  exact .ite (.refl _) (.append (.append hothers (.refl _)) (.refl _))

theorem exportNames_alike (hne : ∀ d d', swaps d d' → d ≠ [] ∧ d' ≠ [])
    (span : Span) (h : List.Forall₂ (Alike s swaps) ps qs) :
    Spliced swaps (s.exportNames span ps).1 (s.exportNames span qs).1 := by
  have hkeep : ∀ p q, Alike s swaps p q →
      (p.kind == .part .exportNamespaceName) = (q.kind == .part .exportNamespaceName) :=
    fun p q h => h.by_kind (fun _ => rfl) (fun _ => rfl) fun _ => rfl
  have hnamed := filter_alike h fun p q h => congrArg not (hkeep p q h)
  have hlist := list_of_parts .names span hnamed fun _ _ h => h.code
  have hspaces := flatMap_of_parts (filter_alike h hkeep) fun _ _ h => h.code
  have hbraces := Spliced.append (.append (.refl (lit "\x7b")) hlist) (.refl (lit "\x7d"))
  simp only [exportNames, hspaces.isEmpty_eq hne, isEmpty_eq hnamed]
  split
  · exact hbraces
  · split
    · exact hspaces
    · exact .append (.append (.append hspaces (.refl _)) (.refl _)) hbraces

theorem exportNamed_alike (hs : s.dense = false) (hne : ∀ d d', swaps d d' → d ≠ [] ∧ d' ≠ [])
    (span : Span) (typeOnly : Bool) (ha : Alike s swaps a a')
    (hb : Alike s swaps b b') (hc : Alike s swaps c c') :
    Spliced swaps (s.item span (.exportNamed typeOnly) [a, b, c])
      (s.item span (.exportNamed typeOnly) [a', b', c']) := by
  have hnames := exportNames_alike hne span ha.parts
  have hfrom := hb.ledAfter (.append (.append (gapIf_spliced hs
      (!(s.exportNames span a.parts).2) (!(s.exportNames span a'.parts).2)) (.refl (lit "from")))
      (.refl s.gap))
    (f := fun p => s.fromModule p c) (g := fun p => s.fromModule p c') (fromModule_alike hb hc)
  exact .append (.append (.append (.append (.append (.refl _) (.refl _)) (.refl _)) hnames) hfrom)
    (.refl _)

theorem item_alike (hs : s.dense = false) (hne : ∀ d d', swaps d d' → d ≠ [] ∧ d' ≠ [])
    (span : Span) (k : ItemKind) (h : List.Forall₂ (Alike s swaps) ps qs) :
    Spliced swaps (s.item span k ps) (s.item span k qs) := by
  rcases h with _ | ⟨ha, _ | ⟨hb, _ | ⟨hc, _ | _⟩⟩⟩
  · cases k <;> exact .refl _
  · cases k with
    | exportDecl => exact .append (.refl _) (declaration_alike ha)
    | exportDefaultDecl => exact .append (.refl _) ha.code
    | exportDefaultExpr =>
      exact .append (.append (.append (.refl _) (gapIf_spliced hs _ _)) ha.whole) (.refl _)
    | exportAssign => exact .append (.refl _) ha.whole
    | exportNamespace => exact .append (.refl _) ha.code
    | _ => exact .refl _
  · cases k with
    | exportAll typeOnly => exact .append (.append (.refl _) (fromModule_alike ha hb)) (.refl _)
    | importEquals exported typeOnly =>
      exact .append (.append (.append (.append (.append (.append (.refl _) ha.code) (.refl _))
        (.refl _)) (.refl _)) hb.code) (.refl _)
    | _ => exact .refl _
  · cases k with
    | «import» typeOnly phase =>
      exact .append (.append (.append (.append (.refl _) (gapIf_spliced hs _ _))
        (importNames_alike hne span ha.parts))
        (fromModule_alike hb hc)) (.refl _)
    | exportNamed typeOnly =>
      exact exportNamed_alike hs hne span typeOnly ha hb hc
    | _ => exact .refl _
  · cases k <;> exact .refl _

theorem moduleItem_alike (h : Alike s swaps p q) :
    Spliced swaps (s.moduleItem p) (s.moduleItem q) := by
  unfold moduleItem
  refine h.by_kind (fun _ => rfl) (fun _ => rfl) fun kind => ?_
  split
  · exact .append h.whole (.refl _)
  · exact h.whole
  · exact statement_alike h

theorem moduleBlock_alike (span : Span) (h : List.Forall₂ (Alike s swaps) ps qs) :
    Spliced swaps (s.moduleBlock span ps) (s.moduleBlock span qs) :=
  .append (.append (.append (.refl _) (list_of_parts _ _ h fun _ _ => moduleItem_alike)) (.refl _))
    (.refl _)

theorem module_alike (span : Span) (hashbang : Option Text)
    (h : List.Forall₂ (Alike s swaps) ps qs) :
    Spliced swaps (s.module span hashbang ps) (s.module span hashbang qs) :=
  .append (.append (.refl _) (flatMap_of_parts h fun _ _ => moduleItem_alike)) (.refl _)

/-! ## Types -/

theorem typeList_alike (l : ListStyle) (span : Span) (h : List.Forall₂ (Alike s swaps) ps qs) :
    Spliced swaps (s.typeList l span ps) (s.typeList l span qs) :=
  list_of_parts _ _ h fun _ _ h => h.code

theorem signature_alike (span : Span) (mark : Doc) (ha : Alike s swaps a a')
    (hb : Alike s swaps b b') (hc : Alike s swaps c c') :
    Spliced swaps (s.signature span mark [a, b, c]) (s.signature span mark [a', b', c']) :=
  .append (.append hb.code (parameters_alike span ha.parts)) (hc.led _ hc.code)

theorem constructSignature_alike (span : Span) (mark : Doc) (ha : Alike s swaps a a')
    (hb : Alike s swaps b b') (hc : Alike s swaps c c') :
    Spliced swaps (s.constructSignature span mark [a, b, c])
      (s.constructSignature span mark [a', b', c']) := by
  have hsignature := signature_alike span mark ha hb hc
  rw [constructSignature, constructSignature, hb.isAbsent_eq]
  exact .append (.refl _) hsignature

theorem memberKey_alike (computed : Bool) (h : Alike s swaps p q) :
    Spliced swaps (memberKey computed p) (memberKey computed q) :=
  .ite (.append (.append (.refl _) h.whole) (.refl _)) h.whole

theorem typeRow_alike (span : Span) (k : TypeKind) (hk : k.isRow = true)
    (h : List.Forall₂ (Alike s swaps) ps qs) :
    Spliced swaps (s.typeCode span k ps) (s.typeCode span k qs) := by
  cases k with
  | object =>
    have hlist := list_of_parts .members span h (f := fun m => m.code ++ lit ";")
      fun _ _ h => .append h.code (.refl _)
    exact .append (.append (.refl _) hlist) (.refl _)
  | tuple => exact .append (.append (.refl _) (typeList_alike _ _ h)) (.refl _)
  | union => exact typeList_alike _ _ h
  | intersection => exact typeList_alike _ _ h
  | _ => cases hk

theorem typeCode_alike (span : Span) (k : TypeKind) (h : List.Forall₂ (Alike s swaps) ps qs) :
    Spliced swaps (s.typeCode span k ps) (s.typeCode span k qs) := by
  have hall := h
  rcases h with _ | ⟨ha, _ | ⟨hb, _ | ⟨hc, _ | ⟨hd, _ | _⟩⟩⟩⟩
  · exact .refl _
  · cases k with
    | array => exact .append ha.code (.refl _)
    | optional => exact .append ha.code (.refl _)
    | rest => exact .append (.refl _) ha.code
    | infer => exact .append (.refl _) ha.code
    | paren => exact .append (.append (.refl _) ha.code) (.refl _)
    | operator word => exact .append (.refl _) ha.code
    | _ => first | exact typeRow_alike span _ rfl hall | exact .refl _
  · cases k with
    | reference => exact .append ha.code hb.code
    | query => exact .append (.append (.refl _) ha.code) hb.code
    | indexed => exact .append (.append (.append ha.code (.refl _)) hb.code) (.refl _)
    | template =>
      exact template_alike (fun _ _ h => h.code) ha hb
    | predicate asserts => exact .append (.append (.refl _) ha.code) (hb.led _ hb.code)
    | _ => first | exact typeRow_alike span _ rfl hall | exact .refl _
  · cases k with
    | function => exact signature_alike span _ ha hb hc
    | constructor abstract =>
      exact .append (.refl _) (constructSignature_alike span _ ha hb hc)
    | mapped readonly optional =>
      have hparts := ha.parts
      exact .append (.append (.append (.append (.append (.append (.append (.append (.append (.append
        (.append (.append (.append (.refl _) (.refl _)) (.refl _)) (.refl _))
        (codeAt_alike hparts 0)) (.refl _)) (codeAt_alike hparts 1)) (hb.led _ hb.code)) (.refl _))
        (.refl _)) (hc.led _ hc.code)) (.refl _)) (.refl _)) (.refl _)
    | «import» =>
      exact .append (.append (.append (.append (.refl _) ha.code) (.refl _)) (hb.led _ hb.code))
        hc.code
    | _ => first | exact typeRow_alike span _ rfl hall | exact .refl _
  · cases k with
    | conditional =>
      exact .append (.append (.append (.append (.append (.append ha.code (.refl _)) hb.code)
        (.refl _)) hc.code) (.refl _)) hd.code
    | _ => first | exact typeRow_alike span _ rfl hall | exact .refl _
  · cases k <;> first | exact typeRow_alike span _ rfl hall | exact .refl _

theorem typeElement_alike (span : Span) (k : TypeElementKind)
    (h : List.Forall₂ (Alike s swaps) ps qs) :
    Spliced swaps (s.typeElement span k ps) (s.typeElement span k qs) := by
  rcases h with _ | ⟨ha, _ | ⟨hb, _ | ⟨hc, _ | ⟨hd, _ | _⟩⟩⟩⟩
  · cases k <;> exact .refl _
  · cases k <;> exact .refl _
  · cases k with
    | property readonly computed optional =>
      exact .append (.append (.append (.refl _) (memberKey_alike computed ha)) (.refl _))
        (typeAfter_alike hb)
    | getter computed =>
      have hinner := flatMap_of_parts hb.parts fun _ _ h => h.code
      exact .append (.append (.append (.refl _) (memberKey_alike computed ha)) (.refl _))
        (hb.led _ (f := fun t => t.parts.flatMap (·.code))
          (g := fun t => t.parts.flatMap (·.code)) hinner)
    | setter computed =>
      exact .append (.append (.append (.append (.refl _) (memberKey_alike computed ha)) (.refl _))
        hb.code) (.refl _)
    | index readonly =>
      exact indexSignature_alike span readonly ha.parts hb
    | _ => exact .refl _
  · cases k with
    | call => exact signature_alike span _ ha hc hb
    | construct => exact constructSignature_alike span _ ha hc hb
    | _ => exact .refl _
  · cases k with
    | method computed optional =>
      exact .append (.append (memberKey_alike computed ha) (.refl _))
        (signature_alike span _ hb hd hc)
    | _ => exact .refl _
  · cases k <;> exact .refl _

/-! ## Nodes -/

theorem case_alike (hs : s.dense = false) (span : Span) {a a' b b' : Printed}
    (ha : Alike s swaps a a') (hb : Alike s swaps b b') :
    Spliced swaps (s.partCode span .case [a, b]) (s.partCode span .case [a', b']) := by
  have hbody := list_of_parts .caseBody span hb.parts fun _ _ => statement_alike
  simp only [partCode, ha.isAbsent_eq]
  exact .append (.append
    (.ite (.refl _) (.append (.append (.refl _) (gapIf_spliced hs _ _)) ha.whole)) (.refl _)) hbody

theorem importNamed_alike {span : Span} (typeOnly : Bool) {a a' b b' : Printed}
    (ha : Alike s swaps a a') (hb : Alike s swaps b b') :
    Spliced swaps (s.partCode span (.importNamed typeOnly) [a, b])
      (s.partCode span (.importNamed typeOnly) [a', b']) := by
  simp only [partCode, hb.isAbsent_eq]
  exact .append (.refl _) (.ite ha.code (renamed_alike hb ha))

theorem tupleElement_alike (span : Span) {a a' b b' : Printed} (ha : Alike s swaps a a')
    (hb : Alike s swaps b b') :
    Spliced swaps (s.partCode span .tupleElement [a, b])
      (s.partCode span .tupleElement [a', b']) := by
  simp only [partCode, ha.isAbsent_eq]
  exact .append (.ite (.refl _) (.append (.append ha.whole (.refl _)) (.refl _))) hb.code

theorem partRow_alike (span : Span) (k : PartKind) (hk : k.isRow = true)
    (h : List.Forall₂ (Alike s swaps) ps qs) :
    Spliced swaps (s.partCode span k ps) (s.partCode span k qs) := by
  cases k with
  | typeParams => exact .append (.append (.refl _) (typeList_alike _ _ h)) (.refl _)
  | typeArgs => exact .append (.append (.refl _) (typeList_alike _ _ h)) (.refl _)
  | interfaceBody =>
    have hlist := list_of_parts .members span h (f := fun m => m.code ++ lit ";")
      fun _ _ h => .append h.code (.refl _)
    exact .append (.append (.refl _) hlist) (.refl _)
  | moduleBlock => exact moduleBlock_alike span h
  | _ => cases hk

theorem partCode_alike (hs : s.dense = false) (span : Span) (k : PartKind)
    (h : List.Forall₂ (Alike s swaps) ps qs) :
    Spliced swaps (s.partCode span k ps) (s.partCode span k qs) := by
  have hall := h
  have htag := tagPart_alike span k h
  rcases h with _ | ⟨ha, _ | ⟨hb, _ | ⟨hc, _ | _⟩⟩⟩
  · cases k <;> exact .refl _
  · cases k with
    | computed => exact .append (.append (.refl _) ha.whole) (.refl _)
    | spread => exact .append (.refl _) ha.whole
    | param => exact ha.whole
    | importDefault => exact ha.code
    | importNamespace => exact .append (.refl _) ha.code
    | exportNamespaceName => exact .append (.refl _) ha.code
    | annotatedType => exact ha.code
    | externalModule => exact .append (.append (.refl _) ha.code) (.refl _)
    | _ =>
      first
      | exact partRow_alike span _ rfl hall
      | exact htag
      | exact .refl _
  · cases k with
    | declarator definite => exact .append ha.whole (hb.led _ hb.whole)
    | case => exact case_alike hs span ha hb
    | catchClause =>
      have hparam := ha.led (lit "(") (f := fun p => p.whole ++ lit ")")
        (g := fun p => p.whole ++ lit ")") (.append ha.whole (.refl _))
      exact .append (.append (.append (.refl _) hparam) (.refl _)) hb.code
    | importNamed typeOnly => exact importNamed_alike typeOnly ha hb
    | exportName typeOnly => exact .append (.refl _) (renamed_alike ha hb)
    | qualified => exact .append (.append ha.code (.refl _)) hb.code
    | exprWithTypeArgs => exact .append ha.whole hb.code
    | tupleElement => exact tupleElement_alike span ha hb
    | enumMember => exact .append ha.code (hb.led _ hb.whole)
    | _ =>
      first
      | exact partRow_alike span _ rfl hall
      | exact htag
      | exact .refl _
  · cases k with
    | typeParam isIn isOut isConst =>
      exact .append (.append (.append (.refl _) ha.code) (hb.led _ hb.code)) (hc.led _ hc.code)
    | _ =>
      first
      | exact partRow_alike span _ rfl hall
      | exact htag
      | exact .refl _
  · cases k <;>
      first
      | exact partRow_alike span _ rfl hall
      | exact htag
      | exact .refl _

/-- Printing a node goes by the code of its parts: where some of them are swapped for others that
look the same, only their code is swapped. -/
theorem nodeCode_alike (hs : s.dense = false) (hne : ∀ d d', swaps d d' → d ≠ [] ∧ d' ≠ [])
    (hparens : s.comments = [] ∨ Doc.SwapsTexts swaps) (kind : Kind) (span : Span)
    (h : List.Forall₂ (Alike s swaps) ps qs) :
    Spliced swaps (s.nodeCode kind span ps) (s.nodeCode kind span qs) := by
  have hcode : ∀ {d d' : Doc}, Spliced swaps d d' →
      Spliced swaps (if takesComments kind then Doc.before span.lo ++ d else d)
        (if takesComments kind then Doc.before span.lo ++ d' else d') :=
    fun hd => .ite (.append (.refl _) hd) hd
  refine hcode ?_
  cases kind with
  | absent => exact .refl _
  | list => exact .refl _
  | module hashbang => exact module_alike span hashbang h
  | expr k => exact expression_alike hs hparens span k h
  | pat k => exact pattern_alike span k h
  | stmt k => exact statementCode_alike hs hparens span k h
  | item k => exact item_alike hs hne span k h
  | type k => exact typeCode_alike span k h
  | typeElement k => exact typeElement_alike span k h
  | member k => exact classMember_alike hs span k h
  | prop k => exact property_alike hs k h
  | part k => exact partCode_alike hs span k h

end Style
end InlineTemplates.Script
