import InlineTemplates.Proofs.ModuleRun
import InlineTemplates.Proofs.Sample
import InlineTemplates.Proofs.SiteShape
import InlineTemplates.Proofs.ValueNodes

/-! # Which declarations of a tracked name the check finds

It finds those of plain scripts, wherever they stand, and overlooks four forms of typed scripts: enums,
their members, namespaces and `import x = ...`. -/

namespace InlineTemplates

open Script (Tree Kind)

/-! ## What binds a name -/

/-- The constructs that bind a name for code that runs. -/
inductive Construct where
  /-- A variable, also one of a loop's head, or a resource of `using`. -/
  | local
  | parameter | caught | function | classOf | imported
  | importEquals | enumDecl | enumMember | namespaceDecl
deriving DecidableEq, Repr

/-- The constructs that the check of names does not look at. -/
def Construct.isOverlooked : Construct → Bool
  | importEquals | enumDecl | enumMember | namespaceDecl => true
  | _ => false

def BoundIn (pattern : Tree) (name : Text) : Prop :=
  ∃ optional span parts, AimedAt (.node (.pat (.name name optional)) span parts) pattern

abbrev nameAt (name : Text) (span : Span) (parts : List Tree) : Tree :=
  .node (.part (.name name)) span parts

/-- A node binds a name by itself, apart from what stands inside it. -/
inductive Binds : Tree → Construct → Text → Prop where
  | declarator {definite s pattern others n} (h : BoundIn pattern n) :
      Binds (.node (.part (.declarator definite)) s (pattern :: others)) .local n
  | parameter {s parts pattern n} (hp : pattern ∈ parts) (h : BoundIn pattern n) :
      Binds (.node (.part .param) s parts) .parameter n
  | parameterProperty {modifiers s parts pattern n} (hp : pattern ∈ parts) (h : BoundIn pattern n) :
      Binds (.node (.member (.parameterProperty modifiers)) s parts) .parameter n
  | arrow {async block s s' params others pattern n} (hp : pattern ∈ params)
      (h : BoundIn pattern n) :
      Binds (.node (.expr (.arrow async block)) s (.node .list s' params :: others)) .parameter n
  | setter {s parts pattern n} (hp : pattern ∈ parts) (h : BoundIn pattern n) :
      Binds (.node (.prop .setter) s parts) .parameter n
  | caught {s pattern others n} (h : BoundIn pattern n) :
      Binds (.node (.part .catchClause) s (pattern :: others)) .caught n
  | functionDecl {declare s s' ps others n} :
      Binds (.node (.stmt (.function declare)) s (nameAt n s' ps :: others)) .function n
  | functionExpr {s s' ps others n} :
      Binds (.node (.expr .function) s (nameAt n s' ps :: others)) .function n
  | classDecl {declare s s' ps others n} :
      Binds (.node (.stmt (.classDecl declare)) s (nameAt n s' ps :: others)) .classOf n
  | classExpr {s s' ps others n} :
      Binds (.node (.expr .classExpr) s (nameAt n s' ps :: others)) .classOf n
  | importNamed {typeOnly s s' ps others n} :
      Binds (.node (.part (.importNamed typeOnly)) s (nameAt n s' ps :: others)) .imported n
  | importDefault {s s' ps others n} :
      Binds (.node (.part .importDefault) s (nameAt n s' ps :: others)) .imported n
  | importNamespace {s s' ps others n} :
      Binds (.node (.part .importNamespace) s (nameAt n s' ps :: others)) .imported n
  | importEquals {exported s s' ps others n} :
      Binds (.node (.item (.importEquals exported false)) s (nameAt n s' ps :: others))
        .importEquals n
  | enumDecl {declare const s s' ps others n} :
      Binds (.node (.stmt (.enum declare const)) s (nameAt n s' ps :: others)) .enumDecl n
  /-- In an enum's initialisers its members go by their names. -/
  | enumMember {s s' ps others n} :
      Binds (.node (.part .enumMember) s (nameAt n s' ps :: others)) .enumMember n
  | quotedEnumMember {raw s s' ps others n} :
      Binds (.node (.part .enumMember) s (.node (.part (.string n raw)) s' ps :: others))
        .enumMember n
  /-- A namespace with a name, as opposed to an outer module or the global scope. -/
  | namespaceDecl {declare s s' ps others n} :
      Binds (.node (.stmt (.namespace declare false)) s (nameAt n s' ps :: others)) .namespaceDecl n

/-- A tracked name is bound by a construct of the module. -/
def Redeclared (bindings : List Binding) (m : Tree) : Prop :=
  ∃ u ∈ valueNodes m, ∃ c n, Binds u c n ∧ Tracked bindings n

/-- A tracked name is bound by a construct that the check does not look at. -/
def RedeclaredUnseen (bindings : List Binding) (m : Tree) : Prop :=
  ∃ u ∈ valueNodes m, ∃ c n, Binds u c n ∧ Tracked bindings n ∧ c.isOverlooked = true

/-! ## What the check finds -/

section
variable {bindings : List Binding} {m u : Tree} {n : Text}

theorem not_tracked_of_boundIn {pattern : Tree} (hcheck : checkShadowing bindings m = .ok ())
    (hu : u ∈ valueNodes m) (hkind : u.kind.isErased = false) (hp : pattern ∈ u.parts)
    (h : BoundIn pattern n) : ¬ Tracked bindings n := by
  obtain ⟨optional, span, parts, haim⟩ := h
  refine not_tracked_of_aimedAt hcheck haim fun v hv => valueNodes_trans ?_ hu
  cases u with
  | node kind span parts => exact mem_valueNodes_of_part hkind hp hv

theorem not_tracked_of_binds {c : Construct} (hcheck : checkShadowing bindings m = .ok ())
    (hu : u ∈ valueNodes m) (h : Binds u c n) (hc : c.isOverlooked = false) :
    ¬ Tracked bindings n := by
  cases h with
  | declarator h | caught h =>
    exact not_tracked_of_boundIn hcheck hu rfl List.mem_cons_self h
  | parameter hp h | parameterProperty hp h | setter hp h =>
    exact not_tracked_of_boundIn hcheck hu rfl hp h
  | @arrow async block s s' params others pattern n hp h =>
    -- The parameters of an arrow stand in a list of their own.
    have hlist : Script.Tree.node .list s' params ∈ valueNodes
        (.node (.expr (.arrow async block)) s (.node .list s' params :: others)) :=
      mem_valueNodes_of_part rfl List.mem_cons_self (self_mem_valueNodes rfl)
    exact not_tracked_of_boundIn hcheck (valueNodes_trans hlist hu) rfl hp h
  | functionDecl | functionExpr | classDecl | classExpr | importNamed | importDefault
  | importNamespace =>
    exact not_tracked_of_ownDeclaration hcheck hu rfl
  | importEquals | enumDecl | enumMember | quotedEnumMember | namespaceDecl => cases hc

theorem ownDeclaration?_of_overlooked {c : Construct} (h : Binds u c n)
    (hc : c.isOverlooked = true) : ownDeclaration? u = none := by
  cases h <;> first | rfl | cases hc

end

theorem redeclared_iff_unseen {bindings : List Binding} {m : Tree}
    (hcheck : checkShadowing bindings m = .ok ()) :
    Redeclared bindings m ↔ RedeclaredUnseen bindings m := by
  constructor
  · rintro ⟨u, hu, c, n, hbinds, htracked⟩
    cases hc : c.isOverlooked with
    | true => exact ⟨u, hu, c, n, hbinds, htracked, hc⟩
    | false => exact absurd htracked (not_tracked_of_binds hcheck hu hbinds hc)
  · rintro ⟨u, hu, c, n, hbinds, htracked, -⟩
    exact ⟨u, hu, c, n, hbinds, htracked⟩

theorem binding_mem_of_site {bindings : List Binding} {t : Tree} {site : Site}
    (h : site ∈ sites bindings t) : site.binding ∈ bindings := by
  obtain ⟨u, -, hu⟩ := List.mem_filterMap.mp h
  rcases of_siteOf? hu with ⟨_, _, _, _, -, -, hb, -⟩ | ⟨_, _, _, _, -, -, hb, -⟩
  · exact List.mem_of_find?_eq_some hb
  · exact List.mem_of_find?_eq_some hb

/-- **What the check misses.** When it passes, a tracked name is declared again just when one of the
four forms does it that the check does not look at, and it never looks at any of these. So after a
successful run each site stands for the import that was removed: unless one of them declares its name,
nothing does but in a type. -/
theorem redeclaration_missed_iff (bindings : List Binding) (m : Tree) :
    (checkShadowing bindings m = .ok () →
      (Redeclared bindings m ↔ RedeclaredUnseen bindings m)) ∧
    (∀ {u : Tree} {c : Construct} {n : Text}, Binds u c n → c.isOverlooked = true →
      ownDeclaration? u = none) ∧
    ∀ {σ : Type} {f : Transform σ} {source : Text} {whole result : Tree} {done : Summary} {s s' : σ},
      trackImports f.targets source whole = .ok (bindings, m) →
      (f.module source whole).runFrom s = (.ok (result, done), s') →
      ∀ site ∈ sites bindings m, site.binding ∈ bindings ∧
        (¬ RedeclaredUnseen bindings m →
          ∀ u ∈ m.nodes, ∀ c, Binds u c site.binding.name → u ∈ typeNodes m) := by
  refine ⟨redeclared_iff_unseen, ownDeclaration?_of_overlooked, fun htrack hrun site hsite => ?_⟩
  have hmem := binding_mem_of_site hsite
  refine ⟨hmem, fun hunseen u hu c hbinds => ?_⟩
  rcases (mem_nodes_iff m).mp hu with hvalue | htype
  · have hredeclared : Redeclared bindings m :=
      ⟨u, hvalue, c, _, hbinds, site.binding, hmem, rfl⟩
    have hcheck := checkShadowing_of_runFrom_module_ok htrack hrun
    exact absurd ((redeclared_iff_unseen hcheck).mp hredeclared) hunseen
  · exact htype

section
open Sample

/-- `enum hbs { A }` -/
def Sample.tagEnum : Tree :=
  .stmt (.enum false false) .nowhere
    [partWord tag, .list [.ofPart .enumMember .nowhere [partWord (text "A"), .absent]]]

/-- `namespace hbs { }` -/
def Sample.tagNamespace : Tree :=
  .stmt (.namespace false false) .nowhere [partWord tag, .ofPart .moduleBlock .nowhere []]

/-- `import hbs = A.B` -/
def Sample.tagImportEquals : Tree :=
  .item (.importEquals false false) .nowhere
    [partWord tag, .ofPart .qualified .nowhere [partWord (text "A"), partWord (text "B")]]

theorem redeclared_of_item {item : Tree} {c : Construct} (h : Binds item c tag)
    (hkind : item.kind.isErased = false) : Redeclared tracked (moduleOf [item]) :=
  ⟨item, mem_valueNodes_of_part rfl List.mem_cons_self (self_mem_valueNodes hkind), c, tag, h,
    ⟨_, List.mem_singleton_self _, rfl⟩⟩

/-- Beside an enumeration with the name of the import, a use of that name is still expanded. -/
theorem redeclaration_missed_iff_tagEnum :
    let whole := moduleOf [tagImport, tagEnum, statement plainUse]
    let m := moduleOf [tagEnum, statement plainUse]
    (checkShadowing tracked m = .ok () ∧
      (Redeclared tracked m ↔ RedeclaredUnseen tracked m)) ∧
    (Binds tagEnum .enumDecl tag ∧ Construct.isOverlooked .enumDecl = true ∧
      ownDeclaration? tagEnum = none) ∧
    trackImports transform.targets [] whole = .ok (tracked, m) ∧
    ∃ result, (transform.module [] whole).runFrom () = (.ok (result, ⟨1, 1⟩), ()) ∧
      ∀ site ∈ sites tracked m, site.binding ∈ tracked ∧
        (¬ RedeclaredUnseen tracked m →
          ∀ u ∈ m.nodes, ∀ c, Binds u c site.binding.name → u ∈ typeNodes m) := by
  obtain ⟨hiff, hblind, hsites⟩ :=
    redeclaration_missed_iff tracked (moduleOf [tagEnum, statement plainUse])
  have htrack : trackImports transform.targets []
      (moduleOf [tagImport, tagEnum, statement plainUse]) =
        .ok (tracked, moduleOf [tagEnum, statement plainUse]) := rfl
  exact ⟨⟨rfl, hiff rfl⟩, ⟨.enumDecl, rfl, hblind .enumDecl rfl⟩, htrack, _, rfl,
    hsites (s := ()) htrack rfl⟩

/-- Not every redeclaration is found. -/
theorem redeclarations_overlooked :
    (checkShadowing tracked (moduleOf [tagEnum]) = .ok () ∧
      Redeclared tracked (moduleOf [tagEnum])) ∧
    (checkShadowing tracked (moduleOf [tagNamespace]) = .ok () ∧
      Redeclared tracked (moduleOf [tagNamespace])) ∧
    checkShadowing tracked (moduleOf [tagImportEquals]) = .ok () ∧
      Redeclared tracked (moduleOf [tagImportEquals]) :=
  ⟨⟨rfl, redeclared_of_item .enumDecl rfl⟩, ⟨rfl, redeclared_of_item .namespaceDecl rfl⟩, rfl,
    redeclared_of_item .importEquals rfl⟩

end

end InlineTemplates
