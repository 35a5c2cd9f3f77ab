import InlineTemplates.Proofs.Faces
import InlineTemplates.Proofs.Stateless

/-! # Two lists of targets

What is tracked for two lists of targets together, and for each of them alone. An item is an import of
at most one of them, as no module is in both lists. -/

namespace InlineTemplates

open Script (Tree Kind)

variable {σ : Type} {first later : List Target} {item : Tree} {items : List Tree}

/-- No module is in both lists. -/
def Target.Apart (first later : List Target) : Prop :=
  ∀ a ∈ first, ∀ b ∈ later, a.source ≠ b.source

instance (first later : List Target) : Decidable (Target.Apart first later) :=
  inferInstanceAs (Decidable (∀ a ∈ first, ∀ b ∈ later, a.source ≠ b.source))

theorem Target.Apart.symm (h : Target.Apart first later) : Target.Apart later first :=
  fun b hb a ha => (h a ha b hb).symm

/-! ## Imports -/

theorem importTarget?_append (first later : List Target) (item : Tree) :
    importTarget? (first ++ later) item = (importTarget? first item).or (importTarget? later item) := by
  rw [importTarget?, importTarget?, importTarget?]
  cases importSource? item with
  | none => rfl
  | some source => exact List.find?_append

theorem importTarget?_of_apart (happart : Target.Apart first later) {target : Target}
    (h : importTarget? first item = some target) : importTarget? later item = none := by
  obtain ⟨source, hsource, hfind⟩ := Option.bind_eq_some_iff.mp h
  rw [importTarget?, hsource, Option.bind_some, Target.find?_eq_none_iff]
  intro b hb heq
  apply happart target (List.mem_of_find?_eq_some hfind) b hb
  rw [heq]
  exact Target.source_of_find? hfind

theorem importTarget?_append_comm (happart : Target.Apart first later) :
    importTarget? (first ++ later) = importTarget? (later ++ first) := by
  funext item
  rw [importTarget?_append, importTarget?_append]
  cases hfirst : importTarget? first item with
  | none => rw [Option.none_or, Option.or_none]
  | some target => rw [importTarget?_of_apart happart hfirst, Option.or_none, Option.none_or]

theorem bindingOf?_append (happart : Target.Apart first later) (item : Tree) :
    bindingOf? (first ++ later) item = (bindingOf? first item).or (bindingOf? later item) := by
  have htarget := importTarget?_append first later item
  cases hfirst : importTarget? first item with
  | none =>
    rw [hfirst, Option.none_or] at htarget
    rw [bindingOf?_of_none hfirst, Option.none_or, bindingOf?, htarget]
    rfl
  | some target =>
    rw [hfirst, Option.some_or] at htarget
    rw [bindingOf?_of_some htarget, bindingOf?_of_some hfirst,
      bindingOf?_of_none (importTarget?_of_apart happart hfirst), Option.or_none]

theorem bindingOf?_of_apart (happart : Target.Apart first later) {b : Binding}
    (h : bindingOf? first item = some b) : bindingOf? later item = none := by
  obtain ⟨target, htarget, -, -⟩ := of_bindingOf? h
  exact bindingOf?_of_none (importTarget?_of_apart happart htarget)

theorem bindingsOf_append_perm (happart : Target.Apart first later) (items : List Tree) :
    (bindingsOf (first ++ later) items).Perm (bindingsOf first items ++ bindingsOf later items) := by
  induction items with
  | nil => exact .refl _
  | cons item rest ih =>
    unfold bindingsOf at ih ⊢
    rw [List.filterMap_cons, List.filterMap_cons, List.filterMap_cons, bindingOf?_append happart]
    cases hfirst : bindingOf? first item with
    | some b =>
      rw [bindingOf?_of_apart happart hfirst, Option.some_or]
      exact ih.cons b
    | none =>
      rw [Option.none_or]
      cases bindingOf? later item with
      | none => exact ih
      | some b => exact (ih.cons b).trans List.perm_middle.symm

theorem tracked_append (happart : Target.Apart first later) (name : Text) :
    Tracked (bindingsOf (first ++ later) items) name ↔
      Tracked (bindingsOf first items) name ∨ Tracked (bindingsOf later items) name := by
  simp only [Tracked, (bindingsOf_append_perm happart items).mem_iff, List.mem_append, or_and_right,
    exists_or]

/-! ## Items -/

theorem otherItems_append (items : List Tree) :
    otherItems (first ++ later) items = otherItems later (otherItems first items) := by
  rw [otherItems, otherItems, otherItems, List.filter_filter]
  refine List.filter_congr fun item _ => ?_
  rw [importTarget?_append]
  cases importTarget? first item <;> cases importTarget? later item <;> rfl

theorem mem_otherItems {targets : List Target} :
    item ∈ otherItems targets items ↔ item ∈ items ∧ importTarget? targets item = none := by
  rw [otherItems, List.mem_filter, Option.isNone_iff_eq_none]

theorem bindingsOf_otherItems (happart : Target.Apart first later) (items : List Tree) :
    bindingsOf later (otherItems first items) = bindingsOf later items := by
  induction items with
  | nil => rfl
  | cons item rest ih =>
    unfold bindingsOf otherItems at ih ⊢
    rw [List.filter_cons]
    cases hfirst : importTarget? first item with
    | none =>
      rw [Option.isNone_none, if_pos rfl, List.filterMap_cons, List.filterMap_cons, ih]
    | some target =>
      have hlater := bindingOf?_of_none (importTarget?_of_apart happart hfirst)
      rw [Option.isNone_some, if_neg Bool.false_ne_true, List.filterMap_cons_none hlater, ih]

theorem trackable_otherItems_iff (happart : Target.Apart first later) :
    Trackable later (otherItems first items) ↔ Trackable later items := by
  constructor
  · rintro ⟨haccepted, hapart⟩
    rw [bindingsOf_otherItems happart] at hapart
    refine ⟨fun item hitem htarget => ?_, hapart⟩
    obtain ⟨target, hlater⟩ := Option.isSome_iff_exists.mp htarget
    have hfirst := importTarget?_of_apart happart.symm hlater
    exact haccepted item (mem_otherItems.mpr ⟨hitem, hfirst⟩) htarget
  · rintro ⟨haccepted, hapart⟩
    refine ⟨fun item hitem htarget => ?_, ?_⟩
    · exact haccepted item (mem_otherItems.mp hitem).1 htarget
    · rwa [bindingsOf_otherItems happart]

theorem trackable_append_iff (happart : Target.Apart first later) :
    Trackable (first ++ later) items ↔ Trackable first items ∧ Trackable later items ∧
      ∀ b ∈ bindingsOf first items, ∀ c ∈ bindingsOf later items, b.name ≠ c.name := by
  have hsources : ∀ b ∈ bindingsOf first items, ∀ c ∈ bindingsOf later items,
      b.source ≠ c.source := by
    intro b hb c hc
    obtain ⟨i, -, hi⟩ := List.mem_filterMap.mp hb
    obtain ⟨j, -, hj⟩ := List.mem_filterMap.mp hc
    obtain ⟨target, htarget, -, hsource⟩ := of_bindingOf? hi
    obtain ⟨target', htarget', -, hsource'⟩ := of_bindingOf? hj
    obtain ⟨source, -, hfind⟩ := Option.bind_eq_some_iff.mp htarget
    obtain ⟨source', -, hfind'⟩ := Option.bind_eq_some_iff.mp htarget'
    rw [← hsource, ← hsource']
    exact happart target (List.mem_of_find?_eq_some hfind) target' (List.mem_of_find?_eq_some hfind')
  have hpairs : (bindingsOf (first ++ later) items).Pairwise Binding.Apart ↔
      (bindingsOf first items).Pairwise Binding.Apart ∧
        (bindingsOf later items).Pairwise Binding.Apart ∧
        ∀ b ∈ bindingsOf first items, ∀ c ∈ bindingsOf later items, b.name ≠ c.name := by
    rw [(bindingsOf_append_perm happart items).pairwise_iff Binding.Apart.symm,
      List.pairwise_append]
    refine and_congr_right fun _ => and_congr_right fun _ => ?_
    refine forall₂_congr fun b hb => forall₂_congr fun c hc => ?_
    exact ⟨fun h => h.2, fun h => ⟨hsources b hb c hc, h⟩⟩
  constructor
  · rintro ⟨haccepted, hapart⟩
    obtain ⟨hfirst, hlater, hnames⟩ := hpairs.mp hapart
    refine ⟨⟨fun item hitem htarget => ?_, hfirst⟩, ⟨fun item hitem htarget => ?_, hlater⟩, hnames⟩
    · obtain ⟨target, hown⟩ := Option.isSome_iff_exists.mp htarget
      have hboth := haccepted item hitem (by rw [importTarget?_append, hown]; rfl)
      rwa [bindingOf?_append happart, bindingOf?_of_none (importTarget?_of_apart happart hown),
        Option.or_none] at hboth
    · obtain ⟨target, hown⟩ := Option.isSome_iff_exists.mp htarget
      have hfirst := importTarget?_of_apart happart.symm hown
      have hboth := haccepted item hitem (by rw [importTarget?_append, hfirst, hown]; rfl)
      rwa [bindingOf?_append happart, bindingOf?_of_none hfirst, Option.none_or] at hboth
  · rintro ⟨⟨hfirst, hapart⟩, ⟨hlater, hapart'⟩, hnames⟩
    refine ⟨fun item hitem htarget => ?_, hpairs.mpr ⟨hapart, hapart', hnames⟩⟩
    rw [importTarget?_append, Option.isSome_or, Bool.or_eq_true] at htarget
    rw [bindingOf?_append happart, Option.isSome_or, Bool.or_eq_true]
    exact htarget.imp (hfirst item hitem) (hlater item hitem)

/-! ## The order of the lists -/

theorem bindingsAfter_congr (source : Text) (found : List Binding)
    (h : ∀ item ∈ items, importTarget? first item = importTarget? later item) :
    bindingsAfter first source found items = bindingsAfter later source found items := by
  induction items generalizing found with
  | nil => rfl
  | cons item rest ih =>
    obtain ⟨hitem, hrest⟩ := List.forall_mem_cons.mp h
    rw [bindingsAfter, bindingsAfter, hitem]
    cases importTarget? later item with
    | none => exact ih found hrest
    | some target =>
      dsimp only
      cases bindingOf source found target item with
      | error e => rfl
      | ok b => exact ih (found ++ [b]) hrest

theorem module_congr (p : Precompiler σ) (source : Text) {m : Tree}
    (h : ∀ item ∈ m.parts, importTarget? first item = importTarget? later item) :
    (Transform.mk p first).module source m = (Transform.mk p later).module source m := by
  have hothers : otherItems first m.parts = otherItems later m.parts :=
    List.filter_congr fun item hitem => congrArg Option.isNone (h item hitem)
  have htrack : trackImports first source m = trackImports later source m := by
    rw [trackImports, trackImports, bindingsAfter_congr source [] h, hothers]
  rw [Transform.module, Transform.module, htrack]

theorem module_append_comm (happart : Target.Apart first later) (p : Precompiler σ) (source : Text)
    (m : Tree) : (Transform.mk p (first ++ later)).module source m =
      (Transform.mk p (later ++ first)).module source m :=
  module_congr p source fun item _ => congrFun (importTarget?_append_comm happart) item

/-! ## Items that keep their faces -/

section
variable {targets : List Target} {f : Tree → Tree} (hf : KeepsFaces f)
include hf

theorem KeepsFaces.importTarget?_eq (item : Tree) :
    importTarget? targets (f item) = importTarget? targets item := by
  rw [importTarget?, importTarget?, hf.importSource?_eq]

theorem KeepsFaces.bindingOf?_eq (hsorted : item.isWellSorted = true) :
    bindingOf? targets (f item) = bindingOf? targets item := by
  rw [bindingOf?, bindingOf?, hf.importTarget?_eq]
  simp only [hf.acceptedName?_eq hsorted]

theorem KeepsFaces.otherItems_map (items : List Tree) :
    otherItems targets (items.map f) = (otherItems targets items).map f := by
  rw [otherItems, otherItems, List.filter_map]
  congr 1
  exact List.filter_congr fun item _ => congrArg Option.isNone (hf.importTarget?_eq item)

variable (hsorted : ∀ item ∈ items, item.isWellSorted = true)
include hsorted

theorem KeepsFaces.bindingsOf_map (targets : List Target) :
    bindingsOf targets (items.map f) = bindingsOf targets items := by
  rw [bindingsOf, bindingsOf, List.filterMap_map]
  exact List.filterMap_congr fun item hitem => hf.bindingOf?_eq (hsorted item hitem)

theorem KeepsFaces.trackable_map_iff : Trackable targets (items.map f) ↔ Trackable targets items := by
  have haccepted : (∀ item ∈ items.map f, (importTarget? targets item).isSome = true →
        (bindingOf? targets item).isSome = true) ↔
      ∀ item ∈ items, (importTarget? targets item).isSome = true →
        (bindingOf? targets item).isSome = true := by
    rw [List.forall_mem_map]
    refine forall₂_congr fun item hitem => ?_
    rw [hf.importTarget?_eq, hf.bindingOf?_eq (hsorted item hitem)]
  have hbindings := hf.bindingsOf_map hsorted targets
  constructor
  · rintro ⟨h, hapart⟩
    exact ⟨haccepted.mp h, hbindings ▸ hapart⟩
  · rintro ⟨h, hapart⟩
    exact ⟨haccepted.mpr h, hbindings ▸ hapart⟩

end

/-! ## Local names -/

theorem mem_declarations_of_part {kind : Kind} {span : Span} {parts : List Tree} {part : Tree}
    {o : Occurrence} (hkind : isTypeOnly kind = false) (hpart : part ∈ parts)
    (ho : o ∈ declarations part) : o ∈ declarations (.node kind span parts) := by
  rw [declarations, hkind, declarationsOfAll_eq_flatMap]
  exact List.mem_append_right _ (List.mem_flatMap.mpr ⟨part, hpart, ho⟩)

theorem occurrence?_of_writtenName? {t : Tree} {name : Text} (hname : t.isPartName = true)
    (h : writtenName? t = some name) : ∃ span, occurrence? t = some ⟨name, span⟩ := by
  unfold Tree.isPartName at hname
  split at hname
  · next n hkind =>
    obtain ⟨kind, span, parts⟩ := t
    obtain rfl : kind = .part (.name n) := hkind
    obtain rfl := Option.some.inj h
    exact ⟨span, rfl⟩
  · cases hname

theorem mem_declarations_of_specifier {kind : Kind} {span : Span} {name : Tree} {others : List Tree}
    {n : Text} (hkind : kind = .part .importDefault ∨ kind = .part (.importNamed false))
    (hsorted : (Script.Tree.node kind span (name :: others)).isWellSorted = true)
    (h : writtenName? name = some n) :
    ∃ o ∈ declarations (.node kind span (name :: others)), o.name = n := by
  have hsorts := (Tree.isWellSorted_node.mp hsorted).1
  have hname : name.isPartName = true := by
    rcases hkind with rfl | rfl
    · exact hsorts
    · exact hsorts
  obtain ⟨place, hoccurrence⟩ := occurrence?_of_writtenName? hname h
  have hown : ownDeclaration? (.node kind span (name :: others)) = some ⟨n, place⟩ := by
    rcases hkind with rfl | rfl
    · exact hoccurrence
    · exact hoccurrence
  have htype : isTypeOnly kind = false := by
    rcases hkind with rfl | rfl
    · rfl
    · rfl
  refine ⟨⟨n, place⟩, ?_, rfl⟩
  rw [declarations, htype, hown]
  exact List.mem_append_left _ (List.mem_singleton_self _)

theorem mem_declarations_of_acceptedName? {target : Target} {name : Text}
    (hsorted : item.isWellSorted = true) (h : acceptedName? target item = some name) :
    ∃ o ∈ declarations item, o.name = name := by
  unfold acceptedName? at h
  split at h
  · next phase span kind place specifier others =>
    obtain ⟨hsorts, hparts⟩ := Tree.isWellSorted_node.mp hsorted
    have hlist : kind = .list := by simpa [Script.Kind.sorts] using hsorts
    have hspecifier := (Tree.isWellSorted_node.mp (hparts _ List.mem_cons_self)).2 specifier
      List.mem_cons_self
    have hdeclared : ∃ o ∈ declarations specifier, o.name = name := by
      split at h
      · split at h
        · exact mem_declarations_of_specifier (.inl rfl) hspecifier h
        · cases h
      · dsimp only at h
        rw [Option.ite_none_right_eq_some] at h
        exact mem_declarations_of_specifier (.inr rfl) hspecifier h.2
      · cases h
    obtain ⟨o, ho, hname⟩ := hdeclared
    refine ⟨o, ?_, hname⟩
    apply mem_declarations_of_part rfl List.mem_cons_self
    exact mem_declarations_of_part (by rw [hlist]; rfl) List.mem_cons_self ho
  · cases h

end InlineTemplates
