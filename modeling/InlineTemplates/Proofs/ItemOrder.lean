import InlineTemplates.Proofs.Sample
import InlineTemplates.Proofs.Stateless

/-! # The order of a module's items

Each of the three steps of a run goes through the items in their order and stops at the first problem.
Whether there is a problem does not depend on the order, and neither does what an item becomes. -/

namespace InlineTemplates

open Script (Tree Kind)

variable {σ : Type} {answer : Text → Answer} {targets : List Target} {items items' : List Tree}

/-! ## Bindings with the same look-up -/

section
variable {bindings bindings' : List Binding}

theorem siteOf?_congr (h : ∀ name, Binding.find? bindings name = Binding.find? bindings' name)
    (t : Tree) : siteOf? bindings t = siteOf? bindings' t := by
  rw [siteOf?_eq_use, siteOf?_eq_use]
  simp only [h]

theorem outermost_congr (h : ∀ t, siteOf? bindings t = siteOf? bindings' t) (t : Tree) :
    outermost bindings t = outermost bindings' t := by
  induction t using Tree.induct with
  | node kind span parts ih =>
    have hroot := h (.node kind span parts)
    cases hsite : siteOf? bindings (.node kind span parts) with
    | some site =>
      rw [hsite] at hroot
      rw [outermost_of_site hsite, outermost_of_site hroot.symm]
    | none =>
      rw [hsite] at hroot
      rw [outermost_of_none hsite, outermost_of_none hroot.symm]
      exact List.flatMap_congr ih

theorem callOf?_congr (h : ∀ t, siteOf? bindings t = siteOf? bindings' t) (t : Tree) :
    callOf? answer bindings t = callOf? answer bindings' t := by
  rw [callOf?, callOf?, h]

theorem expanded_congr (h : ∀ t, siteOf? bindings t = siteOf? bindings' t) (t : Tree) :
    expanded answer bindings t = expanded answer bindings' t := by
  induction t using Tree.induct with
  | node kind span parts ih =>
    have hroot := h (.node kind span parts)
    cases hsite : siteOf? bindings (.node kind span parts) with
    | some site =>
      rw [hsite] at hroot
      rw [expanded_of_site hsite, expanded_of_site hroot.symm, callAt, callAt, callOf?_congr h]
    | none =>
      rw [hsite] at hroot
      rw [expanded_of_none hsite, expanded_of_none hroot.symm]
      exact congrArg (Script.Tree.node kind span) (List.map_congr_left ih)

theorem tracked_perm (h : bindings.Perm bindings') (name : Text) :
    Tracked bindings name ↔ Tracked bindings' name := by
  simp only [Tracked, h.mem_iff]

end

/-! ## Items in another order -/

theorem siteOf?_bindingsOf_perm (h : items.Perm items') (htrack : Trackable targets items)
    (t : Tree) : siteOf? (bindingsOf targets items) t = siteOf? (bindingsOf targets items') t :=
  siteOf?_congr (Binding.find?_perm htrack.apart (bindingsOf_perm h)) t

theorem Passes.perm (h : items.Perm items') (hpasses : Passes answer targets items) :
    Passes answer targets items' where
  trackable := hpasses.trackable.perm h
  unshadowed := by
    intro item hitem o ho htracked
    have hitem : item ∈ otherItems targets items := (otherItems_perm h).mem_iff.mpr hitem
    apply hpasses.unshadowed item hitem o ho
    exact (tracked_perm (bindingsOf_perm h) o.name).mpr htracked
  expandable := by
    intro item hitem u hu
    have hitem : item ∈ otherItems targets items := (otherItems_perm h).mem_iff.mpr hitem
    have hsites := siteOf?_bindingsOf_perm h hpasses.trackable
    rw [← outermost_congr hsites] at hu
    rw [← callOf?_congr hsites]
    exact hpasses.expandable item hitem u hu

/-- What an item becomes in a module with these bindings: nothing if it imports a target. -/
def rewritten? (answer : Text → Answer) (targets : List Target) (bindings : List Binding)
    (item : Tree) : Option Tree :=
  if importsFrom targets item then none else some (expanded answer bindings item)

theorem rewritten?_eq_none_iff {bindings : List Binding} {item : Tree} :
    rewritten? answer targets bindings item = none ↔ importsFrom targets item = true := by
  unfold rewritten?
  split
  · next h => simp [h]
  · next h => simp [h]

theorem expandedItems_eq_filterMap (items : List Tree) : expandedItems answer targets items =
    items.filterMap (rewritten? answer targets (bindingsOf targets items)) := by
  unfold expandedItems otherItems
  generalize bindingsOf targets items = bindings
  induction items with
  | nil => rfl
  | cons item rest ih =>
    rw [List.filter_cons, List.filterMap_cons, ← ih, rewritten?, importsFrom_eq_isSome]
    cases importTarget? targets item with
    | none => rfl
    | some target => rfl

theorem expandedItems_perm (h : items.Perm items') (htrack : Trackable targets items) :
    expandedItems answer targets items' =
      items'.filterMap (rewritten? answer targets (bindingsOf targets items)) := by
  have hsites := siteOf?_bindingsOf_perm h htrack
  have hsame : rewritten? answer targets (bindingsOf targets items') =
      rewritten? answer targets (bindingsOf targets items) := by
    funext item
    rw [rewritten?, rewritten?, expanded_congr hsites]
  rw [expandedItems_eq_filterMap, hsame]

theorem summaryOf_perm (h : items.Perm items') (htrack : Trackable targets items) :
    summaryOf targets items = summaryOf targets items' := by
  have hsites := siteOf?_bindingsOf_perm h htrack
  have houtermost : outermost (bindingsOf targets items) = outermost (bindingsOf targets items') :=
    funext (outermost_congr hsites)
  have hlength : (sitesOfItems targets items).length = (sitesOfItems targets items').length := by
    unfold sitesOfItems
    rw [houtermost]
    exact ((otherItems_perm h).flatMap_right _).length_eq
  rw [summaryOf, summaryOf, (bindingsOf_perm h).length_eq, hlength]

/-- **The order of a module's items does not decide the outcome.** With a precompiler that answers by
the template alone, a run on the items in another order succeeds if it does on these. Then the
summaries are the same, and each of the two results has the items of its module in their order, less
the imports of targets, with what each item becomes: the same for both. -/
theorem item_order_immaterial (answer : Text → Answer) (targets : List Target)
    (horder : items.Perm items') (hashbang : Option Text) (span : Span) (source : Text) (s : σ) :
    ((∃ result done s', ((Transform.stateless answer targets).module source
          (.node (.module hashbang) span items)).runFrom s = (.ok (result, done), s')) ↔
      ∃ result done s', ((Transform.stateless answer targets).module source
          (.node (.module hashbang) span items')).runFrom s = (.ok (result, done), s')) ∧
    ∃ rewritten : Tree → Option Tree,
      (∀ item, rewritten item = none ↔ importsFrom targets item = true) ∧
      ∀ result done s₁ result' done' s₂,
        ((Transform.stateless answer targets).module source
            (.node (.module hashbang) span items)).runFrom s = (.ok (result, done), s₁) →
        ((Transform.stateless answer targets).module source
            (.node (.module hashbang) span items')).runFrom s = (.ok (result', done'), s₂) →
        done = done' ∧
          result = .node (.module hashbang) span (items.filterMap rewritten) ∧
          result' = .node (.module hashbang) span (items'.filterMap rewritten) := by
  constructor
  · constructor
    · rintro ⟨result, done, s', hrun⟩
      have hpasses := (runFrom_module_stateless_iff.mp hrun).1
      exact ⟨_, _, _, runFrom_module_stateless_iff.mpr ⟨hpasses.perm horder, rfl, rfl, rfl⟩⟩
    · rintro ⟨result, done, s', hrun⟩
      have hpasses := (runFrom_module_stateless_iff.mp hrun).1
      exact ⟨_, _, _, runFrom_module_stateless_iff.mpr ⟨hpasses.perm horder.symm, rfl, rfl, rfl⟩⟩
  · refine ⟨rewritten? answer targets (bindingsOf targets items),
      fun item => rewritten?_eq_none_iff, ?_⟩
    intro result done s₁ result' done' s₂ hrun hrun'
    obtain ⟨hpasses, rfl, rfl, -⟩ := runFrom_module_stateless_iff.mp hrun
    obtain ⟨-, rfl, rfl, -⟩ := runFrom_module_stateless_iff.mp hrun'
    have htrack := hpasses.trackable
    refine ⟨summaryOf_perm horder htrack, ?_, ?_⟩
    · rw [expandedItems_eq_filterMap]
    · rw [expandedItems_perm horder htrack]

section
open Sample

/-- A use that stands before the import becomes what it becomes behind it. -/
theorem item_order_immaterial_useFirst :
    let answer := fun template => Answer.expression (literal template)
    let targets := [Target.standard]
    let run := fun items => ((Transform.stateless answer targets).module []
      (.node (.module none) .nowhere items)).runFrom ()
    let items := [tagImport, statement plainUse]
    let items' := [statement plainUse, tagImport]
    let result := moduleOf [statement (templateCall (literal (text "a")) plainUse.span)]
    items.Perm items' ∧ run items = (.ok (result, ⟨1, 1⟩), ()) ∧
      ((∃ result done s', run items = (.ok (result, done), s')) ↔
        ∃ result done s', run items' = (.ok (result, done), s')) ∧
      ∃ rewritten : Tree → Option Tree,
        (∀ item, rewritten item = none ↔ importsFrom targets item = true) ∧
        ∀ result done s₁ result' done' s₂,
          run items = (.ok (result, done), s₁) → run items' = (.ok (result', done'), s₂) →
          done = done' ∧ result = .node (.module none) .nowhere (items.filterMap rewritten) ∧
            result' = .node (.module none) .nowhere (items'.filterMap rewritten) :=
  ⟨.swap _ _ _, rfl, item_order_immaterial _ _ (.swap _ _ _) none .nowhere [] ()⟩

end

end InlineTemplates
