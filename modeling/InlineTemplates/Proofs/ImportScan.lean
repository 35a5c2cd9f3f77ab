import InlineTemplates.Proofs.Failures
import InlineTemplates.Proofs.Sample
import InlineTemplates.Proofs.Tracking
import InlineTemplates.Proofs.Work
import Mathlib.Data.List.Basic

/-! # Tracking in two loops

A first loop goes through the items of a module and notes the places of the imports that it tracks.
Only when it has come to the end does a second one take these items out, the last one first. So a
module that is refused is as it was, and the error is that of the first import that does not go with
those before it. -/

namespace InlineTemplates

open Script (Tree Kind)

variable {targets : List Target} {source : Text}

/-! ## The accepted form -/

/-- A specifier of the form that a target accepts, and the local name that it gives. For the default
export it is the one without braces. For another export it is a name in braces, for values, and the
export is the imported name: the local name, or what is written before it as a name or as a string. -/
inductive Specifies (target : Target) : Tree → Text → Prop where
  | default {s name n} (hexport : target.tag = Target.defaultExport)
      (hlocal : writtenName? name = some n) :
      Specifies target (.node (.part .importDefault) s [name]) n
  | implied {s s' name parts} (hexport : target.tag ≠ Target.defaultExport)
      (hlocal : writtenName? name = some target.tag) :
      Specifies target (.node (.part (.importNamed false)) s [name, .node .absent s' parts])
        target.tag
  | renamed {s s' name parts n} (hexport : target.tag ≠ Target.defaultExport)
      (hlocal : writtenName? name = some n) :
      Specifies target
        (.node (.part (.importNamed false)) s [name, .node (.part (.name target.tag)) s' parts]) n
  | quoted {s s' raw name parts n} (hexport : target.tag ≠ Target.defaultExport)
      (hlocal : writtenName? name = some n) :
      Specifies target
        (.node (.part (.importNamed false)) s
          [name, .node (.part (.string target.tag raw)) s' parts]) n

/-- An import of the form that a target accepts, and the local name that it gives: it is for values
and has exactly one specifier. -/
inductive AcceptedForm (target : Target) : Tree → Text → Prop where
  | only {phase s kind s' specifier others n} (h : Specifies target specifier n) :
      AcceptedForm target
        (.node (.item (.import false phase)) s (.node kind s' [specifier] :: others)) n

theorem of_writtenName? {t : Tree} {n : Text} (h : writtenName? t = some n) :
    (∃ s parts, t = .node (.part (.name n)) s parts) ∨
      ∃ raw s parts, t = .node (.part (.string n raw)) s parts := by
  unfold writtenName? at h
  split at h
  · cases h
    exact .inl ⟨_, _, rfl⟩
  · cases h
    exact .inr ⟨_, _, _, rfl⟩
  · cases h

theorem isDefault_iff {target : Target} :
    target.isDefault = true ↔ target.tag = Target.defaultExport := by
  rw [Target.isDefault, beq_iff_eq]

theorem isDefault_eq_false_iff {target : Target} :
    target.isDefault = false ↔ target.tag ≠ Target.defaultExport := by
  rw [← Bool.not_eq_true, isDefault_iff]

def importedName? (name imported : Tree) : Option Text :=
  if imported.isAbsent then writtenName? name else writtenName? imported

theorem specifierName?_importDefault {target : Target} (s : Span) (name : Tree) :
    specifierName? target (.node (.part .importDefault) s [name]) =
      if target.isDefault then writtenName? name else none := rfl

theorem specifierName?_importNamed {target : Target} (s : Span) (name imported : Tree) :
    specifierName? target (.node (.part (.importNamed false)) s [name, imported]) =
      if !target.isDefault && importedName? name imported == some target.tag then
        writtenName? name else none := rfl

theorem specifies_of_importNamed {target : Target} {s : Span} {name imported : Tree} {n : Text}
    (hexport : target.tag ≠ Target.defaultExport) (hlocal : writtenName? name = some n)
    (himported : importedName? name imported = some target.tag) :
    Specifies target (.node (.part (.importNamed false)) s [name, imported]) n := by
  unfold importedName? at himported
  split at himported
  · next habsent =>
    obtain ⟨s', parts, rfl⟩ := Tree.of_isAbsent habsent
    obtain rfl : n = target.tag := Option.some.inj (hlocal.symm.trans himported)
    exact .implied hexport hlocal
  · rcases of_writtenName? himported with ⟨s', parts, rfl⟩ | ⟨raw, s', parts, rfl⟩
    · exact .renamed hexport hlocal
    · exact .quoted hexport hlocal

theorem specifies_of_name {target : Target} {specifier : Tree} {n : Text}
    (h : specifierName? target specifier = some n) : Specifies target specifier n := by
  have hform := h
  unfold specifierName? acceptedName? Tree.list at hform
  split at hform
  · next heq =>
    cases heq
    split at hform
    · next s name =>
      rw [specifierName?_importDefault] at h
      split at h
      · next hdefault => exact .default (isDefault_iff.mp hdefault) h
      · cases h
    · next s name imported =>
      rw [specifierName?_importNamed] at h
      split at h
      · next hboth =>
        rw [Bool.and_eq_true, Bool.not_eq_true', beq_iff_eq] at hboth
        exact specifies_of_importNamed (isDefault_eq_false_iff.mp hboth.1) h hboth.2
      · cases h
    · cases hform
  · next hnone => exact absurd rfl (hnone _ _ _ _ _ _)

theorem name_of_specifies {target : Target} {specifier : Tree} {n : Text}
    (h : Specifies target specifier n) : specifierName? target specifier = some n := by
  cases h with
  | default hexport hlocal =>
    rw [specifierName?_importDefault, if_pos (isDefault_iff.mpr hexport)]
    exact hlocal
  | @implied s s' name parts hexport hlocal =>
    have himported : importedName? name (.node .absent s' parts) = some target.tag := hlocal
    rw [specifierName?_importNamed, isDefault_eq_false_iff.mpr hexport, himported]
    simpa using hlocal
  | renamed hexport hlocal | quoted hexport hlocal =>
    rw [specifierName?_importNamed, isDefault_eq_false_iff.mpr hexport]
    simpa [importedName?, Tree.isAbsent, writtenName?] using hlocal

theorem acceptedName?_eq_some_iff {target : Target} {item : Tree} {n : Text} :
    acceptedName? target item = some n ↔ AcceptedForm target item n := by
  constructor
  · intro h
    unfold acceptedName? at h
    split at h
    · next phase s kind s' specifier others => exact .only (specifies_of_name h)
    · cases h
  · rintro ⟨h⟩
    exact name_of_specifies h

theorem acceptedName?_eq_none_iff {target : Target} {item : Tree} :
    acceptedName? target item = none ↔ ∀ n, ¬ AcceptedForm target item n := by
  rw [Option.eq_none_iff_forall_ne_some]
  exact forall_congr' fun n => not_congr acceptedName?_eq_some_iff

/-! ## Two loops -/

/-- The first loop: the bindings of the imports of targets, after those that were found, and the places
of these imports, after those that were noted. The place of the first item is given. -/
def scanImports (targets : List Target) (source : Text) (place : Nat) (found : List Binding)
    (noted : List Nat) : List Tree → Except TransformError (List Binding × List Nat)
  | [] => .ok (found, noted)
  | item :: rest =>
    match importTarget? targets item with
    | none => scanImports targets source (place + 1) found noted rest
    | some target =>
      match bindingOf source found target item with
      | .error e => .error e
      | .ok b => scanImports targets source (place + 1) (found ++ [b]) (noted ++ [place]) rest

def takeOut (place : Nat) : Work Tree Unit :=
  modify fun m => .node m.kind m.span (m.parts.eraseIdx place)

/-- Tracking of a module that is changed where it stands. -/
def trackInPlace (targets : List Target) (source : Text) : Work Tree (List Binding) := do
  let m ← get
  let (bindings, noted) ← scanImports targets source 0 [] [] m.parts
  forM noted.reverse takeOut
  return bindings

theorem scanImports_eq {items : List Tree} : ∀ {place : Nat} {found : List Binding}
    {noted : List Nat}, scanImports targets source place found noted items =
      (bindingsAfter targets source found items).map fun bindings =>
        (bindings, noted ++ items.findIdxs (importsFrom targets) place) := by
  induction items with
  | nil =>
    intro place found noted
    simp [scanImports, bindingsAfter, Except.map]
  | cons item rest ih =>
    intro place found noted
    rw [scanImports, bindingsAfter, List.findIdxs_cons, importsFrom_eq_isSome]
    cases importTarget? targets item with
    | none => exact ih
    | some target =>
      dsimp only
      cases bindingOf source found target item with
      | error e => rfl
      | ok b =>
        dsimp only
        rw [ih, Option.isSome_some, if_pos rfl, List.append_assoc]
        rfl

/-- Taking out items one by one from the last keeps the others in their order. The places count from
the end of what stands in front. -/
theorem foldl_eraseIdx_findIdxs {α : Type} (p : α → Bool) (items : List α) : ∀ front : List α,
    (items.findIdxs p front.length).reverse.foldl List.eraseIdx (front ++ items) =
      front ++ items.filter (fun item => !p item) := by
  induction items with
  | nil =>
    intro front
    simp
  | cons item rest ih =>
    intro front
    have hrest := ih (front ++ [item])
    rw [List.length_append, List.length_singleton, List.append_assoc, List.append_assoc] at hrest
    rw [List.findIdxs_cons]
    cases hp : p item with
    | false =>
      rw [if_neg Bool.false_ne_true, List.filter_cons_of_pos (by simp [hp])]
      exact hrest
    | true =>
      rw [if_pos rfl, List.reverse_cons, List.foldl_append, List.filter_cons_of_neg (by simp [hp])]
      rw [List.singleton_append] at hrest
      rw [hrest, List.foldl_cons, List.foldl_nil, List.eraseIdx_append_of_length_le (Nat.le_refl _)]
      simp

theorem runFrom_forM_takeOut (places : List Nat) : ∀ m : Tree,
    (forM places takeOut).runFrom m =
      (.ok (), .node m.kind m.span (places.foldl List.eraseIdx m.parts)) := by
  induction places with
  | nil =>
    rintro ⟨kind, span, parts⟩
    rfl
  | cons place rest ih =>
    intro m
    have hfirst : (takeOut place).runFrom m =
        (.ok (), .node m.kind m.span (m.parts.eraseIdx place)) := rfl
    rw [List.forM_cons, Work.runFrom_bind, hfirst]
    exact ih _

/-- **The two loops track as one pass over the items does.** A module that is refused stays as it
was. -/
theorem runFrom_trackInPlace (m : Tree) :
    (trackInPlace targets source).runFrom m = match trackImports targets source m with
      | .ok (bindings, rest) => (.ok bindings, rest)
      | .error e => (.error e, m) := by
  have hget : Work.runFrom (get : Work Tree Tree) m = (.ok m, m) := rfl
  have hothers : (m.parts.findIdxs (importsFrom targets)).reverse.foldl List.eraseIdx m.parts =
      otherItems targets m.parts := by
    have h := foldl_eraseIdx_findIdxs (importsFrom targets) m.parts []
    simpa [otherItems, importsFrom_eq_isSome] using h
  rw [trackInPlace, trackImports, Work.runFrom_bind, hget]
  dsimp only
  rw [Work.runFrom_bind, Work.runFrom_liftExcept, scanImports_eq]
  cases bindingsAfter targets source [] m.parts with
  | error e => rfl
  | ok bindings =>
    simp only [Except.map, List.nil_append, Work.runFrom_bind, runFrom_forM_takeOut, hothers,
      Work.runFrom_pure]

/-! ## What tracking leaves -/

def targetImports (targets : List Target) (items : List Tree) : List Tree :=
  items.filter (importsFrom targets)

/-- An import of a target in its accepted form, and the binding that it leaves: its module, for which
the first target of the list counts, and its local name. -/
def Leaves (targets : List Target) (item : Tree) (b : Binding) : Prop :=
  importSource? item = some b.source ∧
    ∃ target, targets.find? (·.source == b.source) = some target ∧ AcceptedForm target item b.name

theorem bindingOf?_eq_some_iff {item : Tree} {b : Binding} :
    bindingOf? targets item = some b ↔ Leaves targets item b := by
  constructor
  · intro h
    obtain ⟨target, htarget, hname, hsame⟩ := of_bindingOf? h
    obtain ⟨module, hmodule, hfind⟩ := Option.bind_eq_some_iff.mp htarget
    obtain rfl : target.source = module := Target.source_of_find? hfind
    rw [hsame] at hmodule hfind
    exact ⟨hmodule, target, hfind, acceptedName?_eq_some_iff.mp hname⟩
  · rintro ⟨hmodule, target, hfind, hform⟩
    have htarget : importTarget? targets item = some target := by
      rw [importTarget?, hmodule]
      exact hfind
    rw [bindingOf?_of_some htarget, acceptedName?_eq_some_iff.mpr hform,
      Target.source_of_find? hfind]
    rfl

theorem forall₂_leaves {items : List Tree}
    (h : ∀ item ∈ items, (importTarget? targets item).isSome = true →
      (bindingOf? targets item).isSome = true) :
    List.Forall₂ (Leaves targets) (targetImports targets items) (bindingsOf targets items) := by
  induction items with
  | nil => exact .nil
  | cons item rest ih =>
    obtain ⟨hhere, hrest⟩ := List.forall_mem_cons.mp h
    rw [← importsFrom_eq_isSome] at hhere
    unfold targetImports bindingsOf at ih ⊢
    cases hfrom : importsFrom targets item with
    | false =>
      have hnone : importTarget? targets item = none := by
        rwa [importsFrom_eq_isSome, Option.isSome_eq_false_iff, Option.isNone_iff_eq_none] at hfrom
      rw [List.filter_cons_of_neg (by simp [hfrom]),
        List.filterMap_cons_none (bindingOf?_of_none hnone)]
      exact ih hrest
    | true =>
      obtain ⟨b, hb⟩ := Option.isSome_iff_exists.mp (hhere hfrom)
      rw [List.filter_cons_of_pos hfrom, List.filterMap_cons_some hb]
      exact .cons (bindingOf?_eq_some_iff.mp hb) (ih hrest)

/-- **What tracking takes and what it leaves.** -/
theorem tracked_imports_taken_out {m rest : Tree} {bindings : List Binding}
    (h : trackImports targets source m = .ok (bindings, rest)) :
    (trackInPlace targets source).runFrom m = (.ok bindings, rest) ∧
    rest = .node m.kind m.span (m.parts.filter fun item => !importsFrom targets item) ∧
    List.Forall₂ (Leaves targets) (targetImports targets m.parts) bindings ∧
    (bindings.map Binding.source).Nodup ∧ (bindings.map Binding.name).Nodup := by
  obtain ⟨⟨haccepted, hapart⟩, hbindings, -⟩ := trackImports_eq_ok_iff.mp h
  rw [← hbindings] at hapart
  refine ⟨?_, rest_of_trackImports h, ?_, ?_, ?_⟩
  · rw [runFrom_trackInPlace, h]
  · rw [hbindings]
    exact forall₂_leaves haccepted
  · exact List.pairwise_map.mpr (hapart.imp And.left)
  · exact List.pairwise_map.mpr (hapart.imp And.right)

section
open Sample

/-- `import { "tpl" as compile } from 'tags'` -/
def Sample.quotedImport : Tree :=
  .item (.import false .evaluation) ⟨47, 86⟩
    [.list [.ofPart (.importNamed false) .nowhere
        [partWord (text "compile"), .ofPart (.string (text "tpl") none) .nowhere []]],
      .ofPart (.string (text "tags") none) .nowhere [], .absent]

/-- Of two targets with one module the first counts, and a use stays where it stands. -/
theorem tracked_imports_taken_out_twoTargets :
    let targets : List Target :=
      [⟨text "tags", text "tpl"⟩, Target.standard, ⟨text "tags", text "other"⟩]
    let m := moduleOf [tagImport, statement plainUse, quotedImport]
    let rest := moduleOf [statement plainUse]
    let bindings : List Binding :=
      [⟨Target.standard.source, tag⟩, ⟨text "tags", text "compile"⟩]
    trackImports targets [] m = .ok (bindings, rest) ∧
    (trackInPlace targets []).runFrom m = (.ok bindings, rest) ∧
    rest = .node m.kind m.span (m.parts.filter fun item => !importsFrom targets item) ∧
    List.Forall₂ (Leaves targets) (targetImports targets m.parts) bindings ∧
    (bindings.map Binding.source).Nodup ∧ (bindings.map Binding.name).Nodup := by
  intro targets m rest bindings
  have h : trackImports targets [] m = .ok (bindings, rest) := rfl
  exact ⟨h, tracked_imports_taken_out h⟩

end

/-! ## What is refused -/

/-- The items cannot be tracked: an import of a target has another form than the accepted one, or two
imports of targets have one module or one local name. -/
inductive Refused (targets : List Target) (items : List Tree) : Prop where
  | form {item target} (hitem : item ∈ items) (htarget : importTarget? targets item = some target)
      (hform : ∀ n, ¬ AcceptedForm target item n)
  | module {a b} (hpair : [a, b].Sublist items) (ha : importsFrom targets a = true)
      (hb : importsFrom targets b = true) (hsame : importSource? a = importSource? b)
  | name {a b x y} (hpair : [a, b].Sublist items) (ha : Leaves targets a x)
      (hb : Leaves targets b y) (hsame : x.name = y.name)

theorem Refused.sublist {items items' : List Tree} (h : Refused targets items)
    (hsub : items.Sublist items') : Refused targets items' := by
  cases h with
  | form hitem htarget hform => exact .form (hsub.subset hitem) htarget hform
  | module hpair ha hb hsame => exact .module (hpair.trans hsub) ha hb hsame
  | name hpair ha hb hsame => exact .name (hpair.trans hsub) ha hb hsame

theorem Leaves.importsFrom {item : Tree} {b : Binding} (h : Leaves targets item b) :
    importsFrom targets item = true := by
  obtain ⟨hmodule, target, hfind, -⟩ := h
  rw [importsFrom_eq_isSome, importTarget?, hmodule]
  exact Option.isSome_iff_exists.mpr ⟨target, hfind⟩

theorem trackable_iff_not_refused {items : List Tree} :
    Trackable targets items ↔ ¬ Refused targets items := by
  constructor
  · rintro ⟨haccepted, hapart⟩ hrefused
    rw [bindingsOf, List.pairwise_filterMap, List.pairwise_iff_forall_sublist] at hapart
    have hleaves {item : Tree} (hitem : item ∈ items) (hfrom : importsFrom targets item = true) :
        ∃ b, bindingOf? targets item = some b := by
      rw [importsFrom_eq_isSome] at hfrom
      exact Option.isSome_iff_exists.mp (haccepted item hitem hfrom)
    cases hrefused with
    | @form item target hitem htarget hform =>
      obtain ⟨b, hb⟩ := hleaves hitem (by rw [importsFrom_eq_isSome, htarget]; rfl)
      obtain ⟨other, hother, hname, -⟩ := of_bindingOf? hb
      obtain rfl : other = target := Option.some.inj (hother.symm.trans htarget)
      exact hform _ (acceptedName?_eq_some_iff.mp hname)
    | @module a b hpair ha hb hsame =>
      obtain ⟨x, hx⟩ := hleaves (hpair.subset List.mem_cons_self) ha
      obtain ⟨y, hy⟩ := hleaves (hpair.subset (by simp)) hb
      have hsources := (bindingOf?_eq_some_iff.mp hx).1.symm.trans
        (hsame.trans (bindingOf?_eq_some_iff.mp hy).1)
      exact (hapart hpair x hx y hy).1 (Option.some.inj hsources)
    | @name a b x y hpair ha hb hsame =>
      exact (hapart hpair x (bindingOf?_eq_some_iff.mpr ha) y
        (bindingOf?_eq_some_iff.mpr hb)).2 hsame
  · intro hnot
    refine ⟨fun item hitem htarget => ?_, ?_⟩
    · obtain ⟨target, htarget⟩ := Option.isSome_iff_exists.mp htarget
      rw [bindingOf?_of_some htarget, Option.isSome_map]
      cases hname : acceptedName? target item with
      | some name => rfl
      | none => exact absurd (.form hitem htarget (acceptedName?_eq_none_iff.mp hname)) hnot
    · rw [bindingsOf, List.pairwise_filterMap, List.pairwise_iff_forall_sublist]
      intro a b hpair x hx y hy
      have ha := bindingOf?_eq_some_iff.mp hx
      have hb := bindingOf?_eq_some_iff.mp hy
      constructor
      · intro hsame
        have hsources : importSource? a = importSource? b := by rw [ha.1, hb.1, hsame]
        exact hnot (.module hpair ha.importsFrom hb.importsFrom hsources)
      · intro hsame
        exact hnot (.name hpair ha hb hsame)

/-- The error of an import that is refused: that of its form, if it has another than the accepted one,
and else that of a second import. -/
inductive ImportError (targets : List Target) (source : Text) (item : Tree) :
    TransformErrorKind → Prop where
  | form {target} (htarget : importTarget? targets item = some target)
      (hform : ∀ n, ¬ AcceptedForm target item n) :
      ImportError targets source item
        (.importForm target.requiredSyntax (usedSyntax source item))
  | duplicate {b} (hleaves : Leaves targets item b) :
      ImportError targets source item (.duplicateImport b.source b.name)

theorem RefusedImport.first {items : List Tree} {item : Tree} {e : TransformError}
    (h : RefusedImport targets source [] items item e) :
    ∃ earlier later, items = earlier ++ item :: later ∧ ¬ Refused targets earlier ∧
      Refused targets (earlier ++ [item]) ∧ e.span = item.span ∧
      ImportError targets source item e.kind := by
  have hearlier {earlier : List Tree} {before : List Binding}
      (hbefore : bindingsAfter targets source [] earlier = .ok before) :
      ¬ Refused targets earlier ∧ before = bindingsOf targets earlier := by
    obtain ⟨haccepted, hbindings, hapart⟩ := (bindingsAfter_eq_ok_iff List.Pairwise.nil).mp hbefore
    exact ⟨trackable_iff_not_refused.mp ⟨haccepted, hapart⟩, hbindings⟩
  cases h with
  | @form earlier _ later before target hitems hbefore htarget hform =>
    have hform := acceptedName?_eq_none_iff.mp hform
    refine ⟨earlier, later, hitems, (hearlier hbefore).1, ?_, rfl, .form htarget hform⟩
    exact .form (List.mem_append_right _ List.mem_cons_self) htarget hform
  | @duplicate earlier _ later before target name b hitems hbefore htarget hname hb hsame =>
    obtain ⟨hnot, rfl⟩ := hearlier hbefore
    obtain ⟨other, hother, hleaves⟩ := List.mem_filterMap.mp hb
    have hleaves := bindingOf?_eq_some_iff.mp hleaves
    have hpair : [other, item].Sublist (earlier ++ [item]) :=
      (List.singleton_sublist.mpr hother).append (List.Sublist.refl [item])
    have hitem : Leaves targets item ⟨target.source, name⟩ := by
      rw [← bindingOf?_eq_some_iff, bindingOf?_of_some htarget, hname]
      rfl
    refine ⟨earlier, later, hitems, hnot, ?_, rfl, .duplicate hitem⟩
    rcases hsame with hsame | hsame
    · have hsources : importSource? other = importSource? item := by
        rw [hleaves.1, hitem.1, hsame]
      exact .module hpair hleaves.importsFrom hitem.importsFrom hsources
    · exact .name hpair hleaves hitem hsame

/-- **Tracking fails just when the imports of targets are refused, and leaves the module as it was.**
The error is that of the first import with which those up to it are refused. -/
theorem first_refused_import (targets : List Target) (source : Text) (m : Tree) :
    ((∃ e, trackImports targets source m = .error e) ↔ Refused targets m.parts) ∧
    ∀ e, trackImports targets source m = .error e →
      (trackInPlace targets source).runFrom m = (.error e, m) ∧
      ∃ earlier item later, m.parts = earlier ++ item :: later ∧ ¬ Refused targets earlier ∧
        Refused targets (earlier ++ [item]) ∧ e.span = item.span ∧
        ImportError targets source item e.kind := by
  constructor
  · constructor
    · rintro ⟨e, h⟩
      obtain ⟨item, hrefused⟩ := of_trackImports_error h
      obtain ⟨earlier, later, hitems, -, hfirst, -⟩ := hrefused.first
      refine hfirst.sublist ?_
      rw [hitems]
      exact (List.Sublist.refl earlier).append (List.singleton_sublist.mpr List.mem_cons_self)
    · intro hrefused
      cases htrack : trackImports targets source m with
      | error e => exact ⟨e, rfl⟩
      | ok found =>
        have htrackable := (trackImports_eq_ok_iff.mp htrack).1
        exact absurd hrefused (trackable_iff_not_refused.mp htrackable)
  · intro e h
    obtain ⟨item, hrefused⟩ := of_trackImports_error h
    obtain ⟨earlier, later, hfirst⟩ := hrefused.first
    refine ⟨?_, earlier, item, later, hfirst⟩
    rw [runFrom_trackInPlace, h]

section
open Sample

/-- `import {} from 'htmlbars-inline-precompile'` -/
def Sample.bareImport : Tree :=
  .item (.import false .evaluation) ⟨47, 92⟩
    [.list [], .ofPart (.string Target.standard.source none) .nowhere [], .absent]

/-- Behind an import that is taken, one without a local name is refused, and the first one stays. That
the second one repeats the module as well does not count. -/
theorem first_refused_import_bare :
    let m := moduleOf [tagImport, bareImport, tagImport]
    ∃ e, trackImports [Target.standard] [] m = .error e ∧
      (trackInPlace [Target.standard] []).runFrom m = (.error e, m) ∧
      ∃ earlier item later, m.parts = earlier ++ item :: later ∧
        ¬ Refused [Target.standard] earlier ∧ Refused [Target.standard] (earlier ++ [item]) ∧
        e.span = item.span ∧ ImportError [Target.standard] [] item e.kind := by
  intro m
  have h : trackImports [Target.standard] [] m = .error ⟨⟨47, 92⟩,
      .importForm Target.standard.requiredSyntax (usedSyntax [] bareImport)⟩ := rfl
  exact ⟨_, h, (first_refused_import [Target.standard] [] m).2 _ h⟩

end

end InlineTemplates
