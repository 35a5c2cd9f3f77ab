import InlineTemplates.Proofs.Frame
import InlineTemplates.Proofs.Imports
import InlineTemplates.Proofs.ValueNodes
import Mathlib.Data.List.Forall2

/-! # What a run sees of the parts of a node

A run takes a node for a site or for a declaration by its kind and by the faces of its parts: their
kinds, where tagged templates and calls count as one, and their spans. -/

namespace InlineTemplates

open Script (Tree Kind)

variable {bindings : List Binding} {kind : Kind} {span : Span} {ts us : List Tree} {t u : Tree}

/-- Two nodes have the same root and the same span. -/
structure SameFace (t u : Tree) : Prop where
  root : SameRoot t u
  span : t.span = u.span

theorem SameFace.refl (t : Tree) : SameFace t t := ⟨.inl rfl, rfl⟩

theorem forall₂_sameFace_map {f : Tree → Tree} (h : ∀ t ∈ ts, SameFace (f t) t) :
    List.Forall₂ SameFace (ts.map f) ts := by
  rw [List.forall₂_map_left_iff, List.forall₂_same]
  exact h

/-! ## Declared names -/

def Script.Kind.word? : Kind → Option Text
  | .part (.name n) | .expr (.name n) | .pat (.name n _) => some n
  | _ => none

theorem occurrence?_eq_word (t : Tree) :
    occurrence? t = t.kind.word?.map fun n => ⟨n, t.span⟩ := by
  obtain ⟨kind, span, parts⟩ := t
  cases kind with
  | part k => cases k <;> rfl
  | expr k => cases k <;> rfl
  | pat k => cases k <;> rfl
  | _ => rfl

theorem word?_of_isApplied (h : kind.isApplied = true) : kind.word? = none := by
  rcases Script.Kind.of_isApplied h with rfl | rfl
  · rfl
  · rfl

theorem SameFace.occurrence?_eq (h : SameFace t u) : occurrence? t = occurrence? u := by
  rw [occurrence?_eq_word, occurrence?_eq_word, h.span]
  rcases h.root with hkind | ⟨ht, hu⟩
  · rw [hkind]
  · rw [word?_of_isApplied ht, word?_of_isApplied hu]

theorem SameFace.ownDeclaration?_update (h : SameFace t u) {increment prefixed : Bool} :
    ownDeclaration? (.node (.expr (.update increment prefixed)) span [t]) =
      ownDeclaration? (.node (.expr (.update increment prefixed)) span [u]) := by
  have hoccurrence := h.occurrence?_eq
  simp only [ownDeclaration?, hoccurrence]
  rcases h.root with hkind | ⟨ht, hu⟩
  · rw [hkind]
  · have hword : occurrence? u = none := by
      rw [occurrence?_eq_word, word?_of_isApplied hu]
      rfl
    rw [hword]
    rcases Script.Kind.of_isApplied ht with ht | ht <;>
      rcases Script.Kind.of_isApplied hu with hu | hu <;> rw [ht, hu]

theorem ownDeclaration?_congr (h : List.Forall₂ SameFace ts us) :
    ownDeclaration? (.node kind span ts) = ownDeclaration? (.node kind span us) := by
  cases h with
  | nil => rfl
  | cons h hs =>
    have hfirst := h.occurrence?_eq
    cases kind with
    | expr k =>
      cases k with
      | update increment prefixed =>
        cases hs with
        | nil => exact h.ownDeclaration?_update
        | cons _ _ => rfl
      | function | classExpr => exact hfirst
      | _ => rfl
    | pat k => cases k <;> rfl
    | stmt k =>
      cases k with
      | function _ | classDecl _ => exact hfirst
      | _ => rfl
    | part k =>
      cases k with
      | importNamed _ | importDefault | importNamespace => exact hfirst
      | _ => rfl
    | _ => rfl

/-! ## Sites -/

theorem siteOf?_eq_none_iff :
    siteOf? bindings t = none ↔ ∀ use, useOf? t = some use → ¬ Tracked bindings use.1 := by
  rw [siteOf?_eq_use, Option.bind_eq_none_iff]
  refine forall_congr' fun use => imp_congr_right fun _ => ?_
  rw [Option.map_eq_none_iff, ← Option.not_isSome_iff_eq_none, isSome_find?]

theorem isSome_siteOf?_of_faces (h : List.Forall₂ SameFace ts us) :
    (siteOf? bindings (.node kind span ts)).isSome =
      (siteOf? bindings (.node kind span us)).isSome := by
  refine isSome_siteOf?_congr h.length_eq ?_
  cases h with
  | nil => rfl
  | cons h _ => exact h.root.plainName?_eq

theorem SameRoot.stringOf_eq (h : SameRoot t u) : stringOf t = stringOf u := by
  refine h.congr (fun kind _ _ _ _ => ?_) (fun _ _ => rfl) (fun _ _ => rfl)
  cases kind with
  | part k => cases k <;> rfl
  | _ => rfl

theorem flatMap_stringOf_congr (h : List.Forall₂ SameFace ts us) :
    ts.flatMap stringOf = us.flatMap stringOf := by
  induction h with
  | nil => rfl
  | cons h _ ih => rw [List.flatMap_cons, List.flatMap_cons, h.root.stringOf_eq, ih]

def SiteForm.text? : SiteForm → Option Text
  | .tagged [] strings => some (strings.flatMap stringOf)
  | .call [.node (.expr (.string value _)) _ _] => some value
  | _ => none

theorem template?_toOption (site : Site) : site.template?.toOption = site.form.text? := by
  unfold Site.template?
  obtain ⟨b, span, form⟩ := site
  dsimp only
  split
  · rfl
  · rfl
  · rfl
  · rfl
  · next argument hspread hstring =>
    unfold SiteForm.text?
    split
    · next heq => cases heq
    · next value raw s parts heq => exact absurd (by simpa using heq) (hstring value raw s parts)
    · rfl
  · next hspread hstring hone =>
    unfold SiteForm.text?
    split
    · next heq => cases heq
    · next value raw s parts heq => exact absurd (by simpa using heq) (hone _)
    · rfl

theorem text?_tagged_congr {ps qs : List Tree} (hplaceholders : List.Forall₂ SameFace ps qs)
    (hstrings : List.Forall₂ SameFace ts us) :
    (SiteForm.tagged ps ts).text? = (SiteForm.tagged qs us).text? := by
  cases hplaceholders with
  | nil => exact congrArg some (flatMap_stringOf_congr hstrings)
  | cons _ _ => rfl

theorem text?_call_singleton (t : Tree) : (SiteForm.call [t]).text? = match t.kind with
    | .expr (.string value _) => some value
    | _ => none := by
  obtain ⟨kind, span, parts⟩ := t
  cases kind with
  | expr k => cases k <;> rfl
  | _ => rfl

theorem text?_call_congr (h : List.Forall₂ SameFace ts us) :
    (SiteForm.call ts).text? = (SiteForm.call us).text? := by
  cases h with
  | nil => rfl
  | cons h hs =>
    cases hs with
    | cons _ _ => simp [SiteForm.text?]
    | nil =>
      rw [text?_call_singleton, text?_call_singleton]
      rcases h.root with hkind | ⟨ht, hu⟩
      · rw [hkind]
      · rcases Script.Kind.of_isApplied ht with ht | ht <;>
          rcases Script.Kind.of_isApplied hu with hu | hu <;> rw [ht, hu]

/-- The name in front of a use, and the template that it hands over. -/
def useText? (t : Tree) : Option (Text × Option Text) :=
  (useOf? t).map fun use => (use.1, use.2.text?)

/-- Where a site stands, and the template that it hands over. -/
def Site.ask (site : Site) : Span × Option Text := (site.span, site.form.text?)

theorem siteOf?_map_ask (t : Tree) : (siteOf? bindings t).map Site.ask =
    (useText? t).bind fun use =>
      (Binding.find? bindings use.1).map fun _ => (t.span, use.2) := by
  rw [siteOf?_eq_use, useText?]
  cases useOf? t with
  | none => rfl
  | some use =>
    rw [Option.bind_some, Option.map_map]
    rfl

theorem request_eq_of_ask {a b : Site} {template : Text} (hread : a.template? = .ok template)
    (h : a.ask = b.ask) : a.request = b.request := by
  obtain ⟨hspan, htext⟩ := Prod.mk.inj h
  rw [← template?_toOption, ← template?_toOption, hread] at htext
  have hread' : b.template? = .ok template := by
    cases hb : b.template? with
    | error e =>
      rw [hb] at htext
      cases htext
    | ok other =>
      rw [hb] at htext
      exact congrArg Except.ok (Option.some.inj htext).symm
  rw [Site.request, Site.request, hspan, hread, hread']

theorem map_request_of_ask {xs ys : List Site}
    (hread : ∀ a ∈ xs, ∃ template, a.template? = .ok template)
    (h : xs.map Site.ask = ys.map Site.ask) : xs.map Site.request = ys.map Site.request := by
  induction xs generalizing ys with
  | nil =>
    rw [List.map_eq_nil_iff.mp h.symm]
  | cons a xs ih =>
    cases ys with
    | nil => cases h
    | cons b ys =>
      obtain ⟨⟨template, hfirst⟩, hothers⟩ := List.forall_mem_cons.mp hread
      obtain ⟨hask, hasks⟩ := List.cons_eq_cons.mp h
      rw [List.map_cons, List.map_cons, request_eq_of_ask hfirst hask, ih hothers hasks]

/-! ## Specifiers -/

theorem specifierName?_congr {target : Target} (h : List.Forall₂ SameFace ts us) :
    specifierName? target (.node kind span ts) = specifierName? target (.node kind span us) := by
  cases kind with
  | part k =>
    cases k with
    | importDefault =>
      obtain _ | ⟨hname, _ | _⟩ := h
      · rfl
      · simp only [specifierName?, acceptedName?, Tree.list, hname.root.writtenName?_eq]
      · rfl
    | importNamed typeOnly =>
      cases typeOnly with
      | true => rfl
      | false =>
        obtain _ | ⟨hname, _ | ⟨himported, _ | _⟩⟩ := h
        · rfl
        · rfl
        · simp only [specifierName?, acceptedName?, Tree.list, hname.root.writtenName?_eq,
            himported.root.writtenName?_eq, himported.root.isAbsent_eq]
        · rfl
    | _ => rfl
  | _ => rfl

/-! ## Changes inside of tagged templates and calls -/

/-- The change of a tree keeps all faces, and outside of tagged templates and calls it is a change of
the parts of each node. -/
structure KeepsFaces (f : Tree → Tree) : Prop where
  face : ∀ t, SameFace (f t) t
  node : ∀ kind span parts, kind.isApplied = false →
    f (.node kind span parts) = .node kind span (parts.map f)

namespace KeepsFaces

variable {f : Tree → Tree} (hf : KeepsFaces f)
include hf

theorem forall₂ (ts : List Tree) : List.Forall₂ SameFace (ts.map f) ts :=
  forall₂_sameFace_map fun t _ => hf.face t

theorem importSource?_map (parts : List Tree) :
    importSource? (.node kind span (parts.map f)) = importSource? (.node kind span parts) := by
  apply importSource?_congr
  · rw [List.length_map]
  · rw [List.getElem?_map]
    cases parts[1]? with
    | none => rfl
    | some second => exact (hf.face second).root.stringValue?_eq

theorem importSource?_eq (item : Tree) : importSource? (f item) = importSource? item := by
  obtain ⟨kind, span, parts⟩ := item
  cases hkind : kind.isApplied with
  | false => rw [hf.node kind span parts hkind, hf.importSource?_map]
  | true =>
    have happlied := (hf.face (.node kind span parts)).root.isApplied_eq.trans hkind
    rw [importSource?_of_isApplied happlied, importSource?_of_isApplied (t := .node _ _ _) hkind]

theorem specifierName?_eq {target : Target} (specifier : Tree) :
    specifierName? target (f specifier) = specifierName? target specifier := by
  obtain ⟨kind, span, parts⟩ := specifier
  cases hkind : kind.isApplied with
  | true =>
    have happlied := (hf.face (.node kind span parts)).root.isApplied_eq.trans hkind
    rw [specifierName?_of_isApplied happlied, specifierName?_of_isApplied (t := .node _ _ _) hkind]
  | false =>
    rw [hf.node kind span parts hkind]
    exact specifierName?_congr (hf.forall₂ parts)

theorem acceptedName?_eq {target : Target} {item : Tree} (hsorted : item.isWellSorted = true) :
    acceptedName? target (f item) = acceptedName? target item := by
  obtain ⟨kind, span, parts⟩ := item
  cases hkind : kind.isApplied with
  | true =>
    have happlied := (hf.face (.node kind span parts)).root.isApplied_eq.trans hkind
    rw [acceptedName?_of_isApplied happlied, acceptedName?_of_isApplied (t := .node _ _ _) hkind]
  | false =>
    rw [hf.node kind span parts hkind]
    cases kind with
    | item k =>
      cases k with
      | «import» typeOnly phase =>
        cases typeOnly with
        | true => rfl
        | false =>
          rw [acceptedName?_import, acceptedName?_import]
          cases parts with
          | nil => rfl
          | cons specifiers others =>
            have hlist : specifiers.kind = .list := by
              simpa [Script.Kind.sorts] using (Tree.isWellSorted_node.mp hsorted).1
            obtain ⟨kind, place, inner⟩ := specifiers
            obtain rfl : kind = .list := hlist
            simp only [List.map_cons, List.head?_cons, Option.bind_some,
              hf.node .list place inner rfl]
            obtain _ | ⟨specifier, _ | ⟨_, _⟩⟩ := inner
            · rfl
            · exact hf.specifierName?_eq specifier
            · rfl
      | _ => rfl
    | _ => rfl

theorem items_eq {template : Tree} (hwell : template.isWellFormed = true)
    (hkind : template.kind = .expr .template) :
    (f template).items 0 = (template.items 0).map f ∧
      (f template).items 1 = (template.items 1).map f := by
  obtain ⟨kind, span, parts⟩ := template
  obtain rfl : kind = .expr .template := hkind
  obtain ⟨s₁, placeholders, s₂, strings, rfl, -⟩ :=
    Script.Kind.of_admits_template (Tree.isWellFormed_node.mp hwell).1
  rw [hf.node _ _ _ rfl, List.map_cons, List.map_cons, hf.node _ _ _ rfl, hf.node _ _ _ rfl]
  exact ⟨rfl, rfl⟩

theorem useText?_map {parts : List Tree}
    (hwell : (Script.Tree.node kind span parts).isWellFormed = true) :
    useText? (.node kind span (parts.map f)) = useText? (.node kind span parts) := by
  obtain ⟨hadmits, hparts⟩ := Tree.isWellFormed_node.mp hwell
  rw [Tree.areWellFormed_iff] at hparts
  by_cases htagged : kind = .expr .tagged
  · subst htagged
    obtain ⟨head, typeArgs, template, rfl, -, hkind⟩ := Script.Kind.of_admits_tagged hadmits
    obtain ⟨hplaceholders, hstrings⟩ := hf.items_eq (hparts template (by simp)) hkind
    have htext := text?_tagged_congr (hf.forall₂ (template.items 0)) (hf.forall₂ (template.items 1))
    simp only [useText?, useOf?, List.map_cons, List.map_nil, (hf.face head).root.plainName?_eq,
      Option.map_map, Function.comp_def, hplaceholders, hstrings, htext]
  · by_cases hcall : kind = .expr .call
    · subst hcall
      obtain ⟨head, place, arguments, typeArgs, rfl, -⟩ := Script.Kind.of_admits_call hadmits
      have hlist := hf.node .list place arguments rfl
      have htext := text?_call_congr (hf.forall₂ arguments)
      simp only [useText?, useOf?, List.map_cons, List.map_nil, (hf.face head).root.plainName?_eq,
        Option.map_map, Function.comp_def, hlist, Tree.parts_node, htext]
    · have hnone : ∀ ps, useOf? (.node kind span ps) = none := by
        intro ps
        unfold useOf?
        split
        · next heq => exact absurd (congrArg Tree.kind heq) htagged
        · next heq => exact absurd (congrArg Tree.kind heq) hcall
        · rfl
      rw [useText?, useText?, hnone, hnone]

end KeepsFaces

/-! ## Names in a tree -/

/-- The name stands in the tree as an expression, or something in the tree declares or assigns it. -/
def Mentions (name : Text) (t : Tree) : Prop :=
  ∃ u ∈ t.nodes, plainName? u = some name ∨
    (ownDeclaration? u).map Occurrence.name = some name

instance (name : Text) (t : Tree) : Decidable (Mentions name t) :=
  inferInstanceAs (Decidable (∃ u ∈ t.nodes, plainName? u = some name ∨
    (ownDeclaration? u).map Occurrence.name = some name))

theorem Mentions.of_part {name : Text} {parts : List Tree} (hp : t ∈ parts)
    (h : Mentions name t) : Mentions name (.node kind span parts) := by
  obtain ⟨u, hu, hname⟩ := h
  exact ⟨u, Tree.mem_nodes_node.mpr (.inr ⟨t, hp, hu⟩), hname⟩

theorem mentions_module {name : Text} {hashbang : Option Text} {items : List Tree} :
    Mentions name (.node (.module hashbang) span items) ↔ ∃ item ∈ items, Mentions name item := by
  constructor
  · rintro ⟨u, hu, hname⟩
    rcases Tree.mem_nodes_node.mp hu with rfl | ⟨item, hitem, hu⟩
    · rcases hname with hname | hname
      · cases hname
      · cases hname
    · exact ⟨item, hitem, u, hu, hname⟩
  · rintro ⟨item, hitem, h⟩
    exact h.of_part hitem

theorem mentions_of_mem_declarations {o : Occurrence} (h : o ∈ declarations t) :
    Mentions o.name t := by
  rw [declarations_eq_flatMap, List.mem_flatMap] at h
  obtain ⟨u, hu, ho⟩ := h
  have hnodes : u ∈ t.nodes := (mem_nodes_iff t).mpr (.inl hu)
  exact ⟨u, hnodes, .inr (by rw [Option.mem_toList.mp ho]; rfl)⟩

theorem mentions_of_useOf? {use : Text × SiteForm} (h : useOf? t = some use) :
    Mentions use.1 t := by
  unfold useOf? at h
  split at h
  · next span head typeArgs template =>
    obtain ⟨name, hname, rfl⟩ := Option.map_eq_some_iff.mp h
    refine Mentions.of_part (t := head) List.mem_cons_self ⟨head, Tree.self_mem_nodes head, ?_⟩
    exact .inl hname
  · next span head arguments others =>
    obtain ⟨name, hname, rfl⟩ := Option.map_eq_some_iff.mp h
    refine Mentions.of_part (t := head) List.mem_cons_self ⟨head, Tree.self_mem_nodes head, ?_⟩
    exact .inl hname
  · cases h

theorem outermost_of_not_mentions (h : ∀ b ∈ bindings, ¬ Mentions b.name t) :
    outermost bindings t = [] := by
  induction t using Tree.induct with
  | node kind span parts ih =>
    have hnone : siteOf? bindings (.node kind span parts) = none := by
      rw [siteOf?_eq_none_iff]
      rintro use huse ⟨b, hb, hname⟩
      apply h b hb
      rw [hname]
      exact mentions_of_useOf? huse
    rw [outermost_of_none hnone, List.flatMap_eq_nil_iff]
    intro p hp
    exact ih p hp fun b hb hmention => h b hb (hmention.of_part hp)

end InlineTemplates
