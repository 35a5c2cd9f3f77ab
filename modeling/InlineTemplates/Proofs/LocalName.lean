import InlineTemplates.Proofs.Faces
import InlineTemplates.Proofs.Sample
import InlineTemplates.Proofs.Serving
import InlineTemplates.Proofs.Tracking
import InlineTemplates.Proofs.Untouched

/-! # The local name of a tag

A module may import a tag under any name that is free in it. With another name in the import and in
front of each use, a run does the same. -/

namespace InlineTemplates

open Script (Tree Kind)

variable {σ : Type} {bindings : List Binding} {targets : List Target} {x y : Text}

/-! ## Renaming -/

def withName (y : Text) : Tree → Tree
  | .node (.expr (.name _)) span parts => .node (.expr (.name y)) span parts
  | t => t

def withHead (y : Text) : List Tree → List Tree
  | head :: others => withName y head :: others
  | [] => []

def isUseOf (x : Text) (t : Tree) : Bool := (useOf? t).any fun use => use.1 == x

mutual
/-- The tree with the name `y` in the place of `x` in front of each use of it. -/
def renameUses (x y : Text) : Tree → Tree
  | .node kind span parts =>
    .node kind span (if isUseOf x (.node kind span parts) then
      withHead y (renameUsesInAll x y parts) else renameUsesInAll x y parts)

def renameUsesInAll (x y : Text) : List Tree → List Tree
  | [] => []
  | t :: ts => renameUses x y t :: renameUsesInAll x y ts
end

/-- The specifier of an import with another local name. What it imports stays: where the local name
stood for that too, it now stands before the new one. -/
def withLocalName (y : Text) : Tree → Tree
  | .node (.part .importDefault) span [name] =>
    .node (.part .importDefault) span [.node (.part (.name y)) name.span []]
  | .node (.part (.importNamed typeOnly)) span [name, imported] =>
    .node (.part (.importNamed typeOnly)) span
      [.node (.part (.name y)) name.span [], if imported.isAbsent then name else imported]
  | t => t

def renameImport (y : Text) : Tree → Tree
  | .node (.item (.import typeOnly phase)) span (.node kind place [specifier] :: others) =>
    .node (.item (.import typeOnly phase)) span
      (.node kind place [withLocalName y specifier] :: others)
  | t => t

/-- An item with the local name `y` for the tag that was `x`: the import that has it is renamed, and
each use outside of the imports of targets. -/
def renameItem (targets : List Target) (x y : Text) (item : Tree) : Tree :=
  match importTarget? targets item with
  | none => renameUses x y item
  | some target => if acceptedName? target item = some x then renameImport y item else item

/-- The module with the local name `y` for the tag that was `x`. -/
def renameLocal (targets : List Target) (x y : Text) (m : Tree) : Tree :=
  .node m.kind m.span (m.parts.map (renameItem targets x y))

def Binding.rename (x y : Text) (b : Binding) : Binding :=
  if b.name = x then ⟨b.source, y⟩ else b

/-! ## Renamed uses -/

theorem renameUsesInAll_eq_map (ts : List Tree) :
    renameUsesInAll x y ts = ts.map (renameUses x y) := by
  induction ts with
  | nil => rfl
  | cons t ts ih => rw [renameUsesInAll, ih, List.map_cons]

section
variable {kind : Kind} {span : Span} {parts : List Tree}

theorem renameUses_of_use (h : isUseOf x (.node kind span parts) = true) :
    renameUses x y (.node kind span parts) =
      .node kind span (withHead y (parts.map (renameUses x y))) := by
  rw [renameUses, if_pos h, renameUsesInAll_eq_map]

theorem renameUses_of_not_use (h : isUseOf x (.node kind span parts) = false) :
    renameUses x y (.node kind span parts) = .node kind span (parts.map (renameUses x y)) := by
  rw [renameUses, h, renameUsesInAll_eq_map]
  rfl

theorem useOf?_of_not_applied (h : kind.isApplied = false) :
    useOf? (.node kind span parts) = none := by
  cases huse : useOf? (.node kind span parts) with
  | none => rfl
  | some use =>
    unfold useOf? at huse
    split at huse
    · next heq =>
      obtain rfl := (Script.Tree.node.inj heq).1
      cases h
    · next heq =>
      obtain rfl := (Script.Tree.node.inj heq).1
      cases h
    · cases huse

theorem isUseOf_of_not_applied (h : kind.isApplied = false) :
    isUseOf x (.node kind span parts) = false := by
  rw [isUseOf, useOf?_of_not_applied h]
  rfl

end

theorem keepsFaces_renameUses : KeepsFaces (renameUses x y) where
  face := by
    rintro ⟨kind, span, parts⟩
    rw [renameUses]
    exact ⟨.inl rfl, rfl⟩
  node := by
    intro kind span parts h
    exact renameUses_of_not_use (isUseOf_of_not_applied h)

theorem declarations_withName (t : Tree) : declarations (withName y t) = declarations t := by
  unfold withName
  split
  · rfl
  · rfl

theorem declarationsOfAll_withHead (ts : List Tree) :
    declarationsOfAll (withHead y ts) = declarationsOfAll ts := by
  cases ts with
  | nil => rfl
  | cons head others =>
    rw [withHead, declarationsOfAll, declarationsOfAll, declarations_withName]

theorem declarations_of_isApplied {kind : Kind} {span : Span} {parts : List Tree}
    (h : kind.isApplied = true) :
    declarations (.node kind span parts) = declarationsOfAll parts := by
  rcases Script.Kind.of_isApplied h with rfl | rfl
  · rfl
  · rfl

theorem declarations_renameUses (t : Tree) :
    declarations (renameUses x y t) = declarations t := by
  induction t using Tree.induct with
  | node kind span parts ih =>
    have hparts : declarationsOfAll (parts.map (renameUses x y)) = declarationsOfAll parts := by
      rw [declarationsOfAll_eq_flatMap, declarationsOfAll_eq_flatMap, List.flatMap_map]
      exact List.flatMap_congr ih
    cases hkind : kind.isApplied with
    | false =>
      rw [keepsFaces_renameUses.node kind span parts hkind, declarations, declarations, hparts,
        ownDeclaration?_congr (keepsFaces_renameUses.forall₂ parts)]
    | true =>
      rw [declarations_of_isApplied hkind, ← hparts]
      cases huse : isUseOf x (.node kind span parts) with
      | true => rw [renameUses_of_use huse, declarations_of_isApplied hkind,
          declarationsOfAll_withHead]
      | false => rw [renameUses_of_not_use huse, declarations_of_isApplied hkind]

/-! ## Renamed sites -/

theorem useOf?_withHead {kind : Kind} {span : Span} {parts : List Tree} {use : Text × SiteForm}
    (h : useOf? (.node kind span parts) = some use) :
    useOf? (.node kind span (withHead y parts)) = some (y, use.2) := by
  unfold useOf? at h
  split at h
  · next heq =>
    obtain ⟨rfl, rfl, rfl⟩ := Script.Tree.node.inj heq
    obtain ⟨name, hname, rfl⟩ := Option.map_eq_some_iff.mp h
    obtain ⟨place, inner, rfl⟩ := of_plainName? hname
    rfl
  · next heq =>
    obtain ⟨rfl, rfl, rfl⟩ := Script.Tree.node.inj heq
    obtain ⟨name, hname, rfl⟩ := Option.map_eq_some_iff.mp h
    obtain ⟨place, inner, rfl⟩ := of_plainName? hname
    rfl
  · cases h

theorem useText?_renameUses {t : Tree} (hwell : t.isWellFormed = true) :
    useText? (renameUses x y t) =
      (useText? t).map fun use => (if use.1 = x then y else use.1, use.2) := by
  obtain ⟨kind, span, parts⟩ := t
  have hkept := keepsFaces_renameUses (x := x) (y := y) |>.useText?_map hwell
  cases huse : useOf? (.node kind span parts) with
  | none =>
    have hnot : isUseOf x (.node kind span parts) = false := by
      rw [isUseOf, huse]
      rfl
    rw [renameUses_of_not_use hnot, hkept, useText?, huse]
    rfl
  | some use =>
    have htext : useText? (.node kind span parts) = some (use.1, use.2.text?) := by
      rw [useText?, huse]
      rfl
    have hhead : isUseOf x (.node kind span parts) = (use.1 == x) := by
      rw [isUseOf, huse]
      rfl
    rw [htext] at hkept ⊢
    rw [Option.map_some]
    by_cases hx : use.1 = x
    · rw [renameUses_of_use (by rw [hhead, hx, beq_self_eq_true]), if_pos hx]
      obtain ⟨inner, hinner, hsame⟩ := Option.map_eq_some_iff.mp hkept
      rw [useText?, useOf?_withHead hinner, ← (Prod.mk.inj hsame).2]
      rfl
    · rw [renameUses_of_not_use (by rw [hhead, beq_eq_false_iff_ne]; exact hx), if_neg hx]
      exact hkept

/-! ## Renamed bindings -/

theorem tracked_rename (hx : Tracked bindings x) {name : Text} :
    Tracked (bindings.map (Binding.rename x y)) name ↔
      name = y ∨ name ≠ x ∧ Tracked bindings name := by
  constructor
  · rintro ⟨c, hc, rfl⟩
    obtain ⟨b, hb, rfl⟩ := List.mem_map.mp hc
    unfold Binding.rename
    split
    · exact .inl rfl
    · next hname => exact .inr ⟨hname, b, hb, rfl⟩
  · rintro (rfl | ⟨hname, b, hb, rfl⟩)
    · obtain ⟨b, hb, rfl⟩ := hx
      exact ⟨_, List.mem_map_of_mem hb, by rw [Binding.rename, if_pos rfl]⟩
    · exact ⟨_, List.mem_map_of_mem hb, by rw [Binding.rename, if_neg hname]⟩

theorem Binding.Apart.rename {b c : Binding} (h : b.Apart c) (hb : b.name ≠ y) (hc : c.name ≠ y) :
    (b.rename x y).Apart (c.rename x y) := by
  obtain ⟨hsource, hname⟩ := h
  unfold Binding.rename
  split
  · next hbx =>
    rw [if_neg fun hcx => hname (hbx.trans hcx.symm)]
    exact ⟨hsource, fun heq => hc heq.symm⟩
  · split
    · exact ⟨hsource, hb⟩
    · exact ⟨hsource, hname⟩

section
variable (hx : Tracked bindings x)
include hx

theorem siteOf?_renameUses {t : Tree} (hwell : t.isWellFormed = true) (hfresh : ¬ Mentions y t) :
    (siteOf? (bindings.map (Binding.rename x y)) (renameUses x y t)).map Site.ask =
      (siteOf? bindings t).map Site.ask := by
  have hspan : (renameUses x y t).span = t.span := (keepsFaces_renameUses.face t).span
  rw [siteOf?_map_ask, siteOf?_map_ask, useText?_renameUses hwell, hspan]
  cases huse : useOf? t with
  | none => simp [useText?, huse]
  | some use =>
    have hname : use.1 ≠ y := fun heq => hfresh (heq ▸ mentions_of_useOf? huse)
    have hfind : (Binding.find? (bindings.map (Binding.rename x y))
          (if use.1 = x then y else use.1)).isSome = (Binding.find? bindings use.1).isSome := by
      rw [Bool.eq_iff_iff, isSome_find?, isSome_find?, tracked_rename hx]
      by_cases hhead : use.1 = x
      · simp [hhead, hx]
      · simp [hhead, hname]
    simp only [useText?, huse, Option.map_some, Option.bind_some]
    cases hleft : Binding.find? (bindings.map (Binding.rename x y))
        (if use.1 = x then y else use.1) with
    | none =>
      rw [hleft, Option.isSome_none, eq_comm, Option.isSome_eq_false_iff,
        Option.isNone_iff_eq_none] at hfind
      rw [hfind]
    | some c =>
      rw [hleft, Option.isSome_some, eq_comm, Option.isSome_iff_exists] at hfind
      obtain ⟨b, hb⟩ := hfind
      rw [hb]
      rfl

theorem isUseOf_of_none {t : Tree} (h : siteOf? bindings t = none) : isUseOf x t = false := by
  rw [isUseOf, Option.any_eq_false]
  intro use huse
  rw [beq_eq_false_iff_ne]
  rintro rfl
  exact siteOf?_eq_none_iff.mp h use huse hx

/-- **The renamed tree is the same outside of its outermost sites, and these ask for the same.** -/
theorem outermost_renameUses {t : Tree} (hwell : t.isWellFormed = true) (hfresh : ¬ Mentions y t) :
    frameOf (bindings.map (Binding.rename x y)) (renameUses x y t) = frameOf bindings t ∧
      (outermostSites (bindings.map (Binding.rename x y)) (renameUses x y t)).map Site.ask =
        (outermostSites bindings t).map Site.ask := by
  induction t using Tree.induct with
  | node kind span parts ih =>
    have hask := siteOf?_renameUses hx hwell hfresh
    cases hsite : siteOf? bindings (.node kind span parts) with
    | some site =>
      rw [hsite, Option.map_some, Option.map_eq_some_iff] at hask
      obtain ⟨renamed, hrenamed, hsame⟩ := hask
      rw [renameUses] at hrenamed ⊢
      rw [frameOf, frameOf, hsite, hrenamed, outermostSites_of_site hsite,
        outermostSites_of_site hrenamed]
      exact ⟨rfl, congrArg (fun ask => [ask]) hsame⟩
    | none =>
      rw [hsite, Option.map_none, Option.map_eq_none_iff] at hask
      rw [renameUses_of_not_use (isUseOf_of_none hx hsite)] at hask ⊢
      have hinner := Tree.areWellFormed_iff.mp (Tree.isWellFormed_node.mp hwell).2
      have hparts := fun p hp => ih p hp (hinner p hp) fun h => hfresh (h.of_part hp)
      rw [frameOf_of_none hsite, frameOf_of_none hask, outermostSites_eq_flatMap hsite,
        outermostSites_eq_flatMap hask, List.map_map, List.flatMap_map, List.map_flatMap,
        List.map_flatMap]
      refine ⟨congrArg (Frame.node kind span) (List.map_congr_left fun p hp => ?_), ?_⟩
      · exact (hparts p hp).1
      · exact List.flatMap_congr fun p hp => (hparts p hp).2

end

/-! ## Renamed imports -/

theorem importSource?_renameImport (item : Tree) :
    importSource? (renameImport y item) = importSource? item := by
  unfold renameImport
  split
  · exact importSource?_congr rfl rfl
  · rfl

theorem isAbsent_of_writtenName? {t : Tree} {name : Text} (h : writtenName? t = some name) :
    t.isAbsent = false := by
  unfold writtenName? at h
  split at h
  · rfl
  · rfl
  · cases h

theorem acceptedName?_named {target : Target} {phase : Script.ImportPhase} {kind : Kind}
    {s₁ s₂ s₃ : Span} {name imported : Tree} {others : List Tree} :
    acceptedName? target (.node (.item (.import false phase)) s₁
      (.node kind s₂ [.node (.part (.importNamed false)) s₃ [name, imported]] :: others)) =
        if target.isDefault = false ∧
          writtenName? (if imported.isAbsent then name else imported) = some target.tag
        then writtenName? name else none := by
  cases habsent : imported.isAbsent <;> simp [acceptedName?, habsent]

theorem acceptedName?_renameImport {target : Target} {item : Tree} {name : Text}
    (h : acceptedName? target item = some name) :
    acceptedName? target (renameImport y item) = some y := by
  have haccepted := h
  unfold acceptedName? at h
  split at h
  · split at h
    · split at h
      · next hdefault => simp [renameImport, withLocalName, acceptedName?, hdefault, writtenName?]
      · cases h
    · next phase place kind span others place' was imported =>
      rw [acceptedName?_named, Option.ite_none_right_eq_some] at haccepted
      obtain ⟨hnamed, -⟩ := haccepted
      -- Where the local name stood for what is imported too, it is no missing part.
      have hthere : (if imported.isAbsent then was else imported).isAbsent = false :=
        isAbsent_of_writtenName? hnamed.2
      rw [renameImport, withLocalName, acceptedName?_named, hthere]
      rw [if_neg Bool.false_ne_true, if_pos hnamed]
      rfl
    · cases h
  · cases h

theorem importTarget?_renameItem (targets : List Target) (x y : Text) (item : Tree) :
    importTarget? targets (renameItem targets x y item) = importTarget? targets item := by
  unfold renameItem
  cases htarget : importTarget? targets item with
  | none => rw [importTarget?, keepsFaces_renameUses.importSource?_eq, ← importTarget?, htarget]
  | some target =>
    dsimp only
    split
    · rw [importTarget?, importSource?_renameImport, ← importTarget?, htarget]
    · exact htarget

theorem bindingOf?_renameItem (item : Tree) :
    bindingOf? targets (renameItem targets x y item) =
      (bindingOf? targets item).map (Binding.rename x y) := by
  have hkept := importTarget?_renameItem targets x y item
  cases htarget : importTarget? targets item with
  | none =>
    rw [htarget] at hkept
    rw [bindingOf?_of_none hkept, bindingOf?_of_none htarget]
    rfl
  | some target =>
    rw [htarget] at hkept
    rw [bindingOf?_of_some hkept, bindingOf?_of_some htarget, renameItem, htarget]
    dsimp only
    cases hname : acceptedName? target item with
    | none =>
      rw [if_neg (by simp), hname]
      rfl
    | some name =>
      by_cases heq : name = x
      · rw [heq, if_pos rfl, acceptedName?_renameImport hname]
        simp [Binding.rename]
      · rw [if_neg (by simpa using heq), hname]
        simp [Binding.rename, heq]

section
variable {items : List Tree}

theorem bindingsOf_renameItem :
    bindingsOf targets (items.map (renameItem targets x y)) =
      (bindingsOf targets items).map (Binding.rename x y) := by
  rw [bindingsOf, bindingsOf, List.filterMap_map, List.map_filterMap]
  exact List.filterMap_congr fun item _ => bindingOf?_renameItem item

theorem otherItems_renameItem :
    otherItems targets (items.map (renameItem targets x y)) =
      (otherItems targets items).map (renameUses x y) := by
  have hkept : (fun item => (importTarget? targets item).isNone) ∘ renameItem targets x y =
      fun item => (importTarget? targets item).isNone :=
    funext fun item => congrArg Option.isNone (importTarget?_renameItem targets x y item)
  rw [otherItems, otherItems, List.filter_map, hkept]
  refine List.map_congr_left fun item hitem => ?_
  have hnone := (List.mem_filter.mp hitem).2
  rw [renameItem, Option.isNone_iff_eq_none.mp hnone]

theorem Trackable.renameItem (h : Trackable targets items)
    (hother : ¬ Tracked (bindingsOf targets items) y) :
    Trackable targets (items.map (renameItem targets x y)) where
  accepted := by
    intro item hitem htarget
    obtain ⟨original, horiginal, rfl⟩ := List.mem_map.mp hitem
    rw [importTarget?_renameItem] at htarget
    rw [bindingOf?_renameItem, Option.isSome_map]
    exact h.accepted original horiginal htarget
  apart := by
    rw [bindingsOf_renameItem, List.pairwise_map]
    refine h.apart.imp_of_mem fun hb hc hapart => hapart.rename ?_ ?_
    · exact fun hname => hother ⟨_, hb, hname⟩
    · exact fun hname => hother ⟨_, hc, hname⟩

end

/-! ## Renamed modules -/

section
variable {source : Text} {m rest : Tree}

theorem trackImports_renameLocal (hm : m.isModule = true) (hother : ¬ Tracked bindings y)
    (h : trackImports targets source m = .ok (bindings, rest)) :
    trackImports targets source (renameLocal targets x y m) =
      .ok (bindings.map (Binding.rename x y), renameUses x y rest) := by
  obtain ⟨hashbang, span, items, rfl, -⟩ := Tree.of_isModule hm
  obtain ⟨htrackable, rfl, rfl⟩ := trackImports_eq_ok_iff.mp h
  rw [trackImports_eq_ok_iff]
  refine ⟨htrackable.renameItem hother, bindingsOf_renameItem.symm, ?_⟩
  rw [keepsFaces_renameUses.node _ _ _ rfl]
  exact congrArg (Script.Tree.node (.module hashbang) span) otherItems_renameItem.symm

theorem mentions_of_rest {name : Text} (hm : m.isModule = true)
    (h : trackImports targets source m = .ok (bindings, rest)) (hmention : Mentions name rest) :
    Mentions name m := by
  obtain ⟨hashbang, span, items, rfl, -⟩ := Tree.of_isModule hm
  rw [rest_of_trackImports h] at hmention
  obtain ⟨item, hitem, hmention⟩ := mentions_module.mp hmention
  exact hmention.of_part (List.mem_filter.mp hitem).1

theorem checkShadowing_renameUses (hx : Tracked bindings x) (hfresh : ¬ Mentions y rest)
    (h : checkShadowing bindings rest = .ok ()) :
    checkShadowing (bindings.map (Binding.rename x y)) (renameUses x y rest) = .ok () := by
  rw [checkShadowing_eq_ok_iff_declarations, declarations_renameUses]
  intro o ho htracked
  rcases (tracked_rename hx).mp htracked with hname | ⟨-, hkept⟩
  · exact hfresh (hname ▸ mentions_of_mem_declarations ho)
  · exact checkShadowing_eq_ok_iff_declarations.mp h o ho hkept

end

theorem runFrom_renameLocal {τ : Type} {f : Transform σ} {source : Text} {m result : Tree}
    {done : Summary} {s s' : σ} (hm : m.isModule = true)
    (hx : Tracked (bindingsOf f.targets m.parts) x)
    (hother : ¬ Tracked (bindingsOf f.targets m.parts) y) (hfresh : ¬ Mentions y m)
    (h : (f.module source m).runFrom s = (.ok (result, done), s')) (q : Precompiler τ) (s₀ : τ) :
    ((Transform.mk q f.targets).module source (renameLocal f.targets x y m)).runFrom s₀ =
      ((Transform.mk q f.targets).module source m).runFrom s₀ := by
  obtain ⟨bindings, rest, calls, htrack, hcheck, hrun, -, -⟩ := of_runFrom_module_ok h
  obtain ⟨-, hbindings, -⟩ := trackImports_eq_ok_iff.mp htrack
  rw [← hbindings] at hx hother
  have hfresh : ¬ Mentions y rest := fun hmention => hfresh (mentions_of_rest hm htrack hmention)
  obtain ⟨hframe, hasks⟩ := outermost_renameUses hx (isWellFormed_rest hm htrack) hfresh
  have hread := template?_of_expansions (expansions_of_runFrom hrun)
  have hsites := expandSites_congr (p := q) (map_request_of_ask hread hasks.symm)
  have htrack' := trackImports_renameLocal (x := x) hm hother htrack
  rw [runFrom_module (f := ⟨q, f.targets⟩) htrack', runFrom_module (f := ⟨q, f.targets⟩) htrack,
    hcheck, checkShadowing_renameUses hx hfresh hcheck, hframe, hsites, List.length_map]

/-- **The local name of a tag does not matter.** If a run succeeds on a module and the module mentions
a name nowhere, a tag of the module may as well be imported under this name: with it in the import
and in front of each use, all spans kept, the run succeeds with the same result and the same summary,
after the same calls of the precompiler in the same order. -/
theorem local_name_immaterial {f : Transform σ} {source : Text} {m result : Tree} {done : Summary}
    {s s' : σ} (hm : m.isModule = true) (hx : Tracked (bindingsOf f.targets m.parts) x)
    (hother : ¬ Tracked (bindingsOf f.targets m.parts) y) (hfresh : ¬ Mentions y m)
    (h : (f.module source m).runFrom s = (.ok (result, done), s')) :
    (f.module source (renameLocal f.targets x y m)).runFrom s = (.ok (result, done), s') ∧
      (f.recorded.module source (renameLocal f.targets x y m)).runFrom (s, []) =
        (f.recorded.module source m).runFrom (s, []) := by
  have hsame := runFrom_renameLocal hm hx hother hfresh h f.precompiler s
  have hrecorded := runFrom_renameLocal hm hx hother hfresh h f.precompiler.recorded (s, [])
  exact ⟨hsame.trans h, hrecorded⟩

section
open Sample

def Sample.forNamed : Transform Unit := ⟨transform.precompiler, [⟨text "tags", tag⟩]⟩

def Sample.namedModule (name imported : Tree) (used : Text) : Tree :=
  moduleOf [.item (.import false .evaluation) ⟨1, 28⟩
      [.list [.ofPart (.importNamed false) .nowhere [name, imported]],
        .ofPart (.string (text "tags") none) .nowhere [], .absent],
    statement (callOf used [literal (text "a")] .absent ⟨29, 37⟩)]

/-- From `{ hbs }` the import changes to `{ hbs as tpl }`, and the use changes with it. -/
theorem local_name_immaterial_named :
    let tpl := text "tpl"
    let m := namedModule (partWord tag) .absent tag
    let renamed := namedModule (partWord tpl) (partWord tag) tpl
    let result := moduleOf [statement (templateCall (literal (text "a")) ⟨29, 37⟩)]
    (m.isModule = true ∧ Tracked (bindingsOf forNamed.targets m.parts) tag ∧
      ¬ Tracked (bindingsOf forNamed.targets m.parts) tpl ∧ ¬ Mentions tpl m ∧
      (forNamed.module [] m).runFrom () = (.ok (result, ⟨1, 1⟩), ())) ∧
    renameLocal forNamed.targets tag tpl m = renamed ∧
    (forNamed.module [] renamed).runFrom () = (.ok (result, ⟨1, 1⟩), ()) ∧
    (forNamed.recorded.module [] renamed).runFrom ((), []) =
      (forNamed.recorded.module [] m).runFrom ((), []) := by
  have hx : Tracked (bindingsOf forNamed.targets
      (namedModule (partWord tag) .absent tag).parts) tag := by decide
  have hother : ¬ Tracked (bindingsOf forNamed.targets
      (namedModule (partWord tag) .absent tag).parts) (text "tpl") := by decide
  have hfresh : ¬ Mentions (text "tpl") (namedModule (partWord tag) .absent tag) := by decide
  exact ⟨⟨rfl, hx, hother, hfresh, rfl⟩, rfl,
    local_name_immaterial (f := forNamed) rfl hx hother hfresh rfl⟩

end

end InlineTemplates
