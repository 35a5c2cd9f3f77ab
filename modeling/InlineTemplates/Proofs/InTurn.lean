import InlineTemplates.Proofs.SplitTargets
import InlineTemplates.Proofs.TwoPasses

/-! # One run for all targets, or one after the other

A run for two lists of targets does at once what a run for the first and a run for the later ones do
in turn. What it takes out whole it does not look into, so the first of two runs may find more to do,
and more to refuse, than the run for both: the uses and declarations of its names in the imports of
later targets and in the type arguments of their uses. -/

namespace InlineTemplates

open Script (Tree Kind)

variable {σ : Type} {answer : Text → Answer} {first later : List Target} {items : List Tree}

/-- Two transforms, the second one on the result of the first, and what both of them did. -/
def inTurn (f g : Transform σ) (source : Text) (m : Tree) : Work σ (Tree × Summary) := do
  let (between, done) ← f.module source m
  let (result, more) ← g.module source between
  return (result, ⟨done.removed + more.removed, done.expanded + more.expanded⟩)

/-- What a run for both lists takes out whole and a run for the first ones leaves: the imports of the
later targets, and the outermost sites that are none of the first ones. -/
def laterParts (first later : List Target) (items : List Tree) : List Tree :=
  items.filter (importsFrom later) ++
    (sitesOfItems (first ++ later) items).filter fun u =>
      (siteOf? (bindingsOf first items) u).isNone

/-- The sites of the first targets that a run for both lists does not see. -/
def unseenSites (first later : List Target) (items : List Tree) : List Tree :=
  (laterParts first later items).flatMap (outermost (bindingsOf first items))

/-! ## The items between the runs -/

section
variable (happart : Target.Apart first later)
  (hsorted : ∀ item ∈ items, item.isWellSorted = true)

theorem isWellSorted_otherItems {targets : List Target}
    (hsorted : ∀ item ∈ items, item.isWellSorted = true) :
    ∀ item ∈ otherItems targets items, item.isWellSorted = true :=
  fun item hitem => hsorted item (mem_otherItems.mp hitem).1

include happart hsorted

theorem bindingsOf_between :
    bindingsOf later (expandedItems answer first items) = bindingsOf later items := by
  rw [expandedItems, (keepsFaces_expanded _ _).bindingsOf_map (isWellSorted_otherItems hsorted),
    bindingsOf_otherItems happart]

theorem trackable_between_iff :
    Trackable later (expandedItems answer first items) ↔ Trackable later items := by
  rw [expandedItems, (keepsFaces_expanded _ _).trackable_map_iff (isWellSorted_otherItems hsorted),
    trackable_otherItems_iff happart]

omit happart hsorted in
theorem otherItems_between : otherItems later (expandedItems answer first items) =
    (otherItems (first ++ later) items).map (expanded answer (bindingsOf first items)) := by
  rw [expandedItems, (keepsFaces_expanded _ _).otherItems_map, otherItems_append]

end

/-! ## Both runs -/

theorem passes_iff {targets : List Target} : Passes answer targets items ↔
    Trackable targets items ∧ ∀ item ∈ otherItems targets items,
      GoesThrough answer (bindingsOf targets items) item := by
  constructor
  · rintro ⟨htrackable, hunshadowed, hexpandable⟩
    exact ⟨htrackable, fun item hitem => ⟨hunshadowed item hitem, hexpandable item hitem⟩⟩
  · rintro ⟨htrackable, hitems⟩
    exact ⟨htrackable, fun item hitem => (hitems item hitem).unshadowed,
      fun item hitem => (hitems item hitem).expandable⟩

theorem names_apart (hsorted : ∀ item ∈ items, item.isWellSorted = true)
    (himports : ∀ item ∈ items.filter (importsFrom later),
      GoesThrough answer (bindingsOf first items) item) :
    ∀ b ∈ bindingsOf first items, ∀ c ∈ bindingsOf later items, b.name ≠ c.name := by
  intro b hb c hc hname
  obtain ⟨item, hitem, hbinding⟩ := List.mem_filterMap.mp hc
  obtain ⟨target, htarget, haccepted, -⟩ := of_bindingOf? hbinding
  obtain ⟨o, ho, hlocal⟩ := mem_declarations_of_acceptedName? (hsorted item hitem) haccepted
  have himport : item ∈ items.filter (importsFrom later) := by
    rw [List.mem_filter, importsFrom_eq_isSome, htarget]
    exact ⟨hitem, rfl⟩
  exact (himports item himport).unshadowed o ho ⟨b, hb, hname.trans hlocal.symm⟩

theorem forall_laterParts_iff {p : Tree → Prop} : (∀ part ∈ laterParts first later items, p part) ↔
    (∀ item ∈ items.filter (importsFrom later), p item) ∧
      ∀ item ∈ otherItems (first ++ later) items,
        ∀ u ∈ outermost (bindingsOf (first ++ later) items) item,
          siteOf? (bindingsOf first items) u = none → p u := by
  rw [laterParts, List.forall_mem_append]
  refine and_congr_right fun _ => ?_
  simp only [sitesOfItems, List.mem_filter, List.mem_flatMap, Option.isNone_iff_eq_none]
  constructor
  · intro h item hitem u hu hown
    exact h u ⟨⟨item, hitem, hu⟩, hown⟩
  · rintro h u ⟨⟨item, hitem, hu⟩, hown⟩
    exact h item hitem u hu hown

theorem length_flatMap_add {ts : List Tree} {a b c d : Tree → List Tree}
    (h : ∀ t ∈ ts, (a t).length + (b t).length = (c t).length + (d t).length) :
    (ts.flatMap a).length + (ts.flatMap b).length =
      (ts.flatMap c).length + (ts.flatMap d).length := by
  induction ts with
  | nil => rfl
  | cons t ts ih =>
    obtain ⟨hfirst, hothers⟩ := List.forall_mem_cons.mp h
    have hrest := ih hothers
    simp only [List.flatMap_cons, List.length_append]
    omega

section
variable (happart : Target.Apart first later)
include happart

theorem otherItems_perm_append (items : List Tree) : (otherItems first items).Perm
    (otherItems (first ++ later) items ++ items.filter (importsFrom later)) := by
  have himports : (otherItems first items).filter (fun item => !(importTarget? later item).isNone) =
      items.filter (importsFrom later) := by
    rw [otherItems, List.filter_filter]
    refine List.filter_congr fun item _ => ?_
    rw [importsFrom_eq_isSome]
    cases hlater : importTarget? later item with
    | none => simp
    | some target => simp [importTarget?_of_apart happart.symm hlater]
  rw [otherItems_append, ← himports]
  exact (List.filter_append_perm _ _).symm

theorem forall_otherItems_iff {p : Tree → Prop} : (∀ item ∈ otherItems first items, p item) ↔
    (∀ item ∈ otherItems (first ++ later) items, p item) ∧
      ∀ item ∈ items.filter (importsFrom later), p item := by
  simp only [(otherItems_perm_append happart items).mem_iff, List.forall_mem_append]

variable (hwell : ∀ item ∈ items, item.isWellFormed = true)
  (hsorted : ∀ item ∈ items, item.isWellSorted = true)
  (havoid : Avoids answer (Tracked (bindingsOf (first ++ later) items)))
include hwell hsorted havoid

/-- **Two runs in turn take a module just when one run for all targets does**, and the first ones go
through all that it takes out whole for the later ones. -/
theorem passes_both_iff :
    Passes answer first items ∧ Passes answer later (expandedItems answer first items) ↔
      Passes answer (first ++ later) items ∧
        ∀ part ∈ laterParts first later items,
          GoesThrough answer (bindingsOf first items) part := by
  have hitems := fun item (hitem : item ∈ otherItems (first ++ later) items) =>
    goesThrough_both_iff (tracked_append happart) havoid
      (hwell item (mem_otherItems.mp hitem).1) (hsorted item (mem_otherItems.mp hitem).1)
  rw [passes_iff, passes_iff, passes_iff, forall_otherItems_iff happart,
    trackable_between_iff happart hsorted, bindingsOf_between happart hsorted, otherItems_between,
    List.forall_mem_map, forall_laterParts_iff, trackable_append_iff happart]
  constructor
  · rintro ⟨⟨hfirst, hthrough, himports⟩, ⟨hlater, hthrough'⟩⟩
    have hboth := fun item hitem => (hitems item hitem).mp ⟨hthrough item hitem, hthrough' item hitem⟩
    exact ⟨⟨⟨hfirst, hlater, names_apart hsorted himports⟩,
      fun item hitem => (hboth item hitem).1⟩, himports, fun item hitem => (hboth item hitem).2⟩
  · rintro ⟨⟨⟨hfirst, hlater, -⟩, hthrough⟩, himports, hinner⟩
    have hboth := fun item hitem => (hitems item hitem).mpr ⟨hthrough item hitem, hinner item hitem⟩
    exact ⟨⟨hfirst, fun item hitem => (hboth item hitem).1, himports⟩, hlater,
      fun item hitem => (hboth item hitem).2⟩

theorem expandedItems_both (hfirst : Passes answer first items)
    (hall : Passes answer (first ++ later) items) :
    expandedItems answer later (expandedItems answer first items) =
      expandedItems answer (first ++ later) items := by
  rw [expandedItems, bindingsOf_between happart hsorted, otherItems_between, List.map_map,
    expandedItems]
  refine List.map_congr_left fun item hitem => ?_
  have hleft : item ∈ otherItems first items :=
    ((forall_otherItems_iff happart).mp fun _ h => h).1 item hitem
  exact expanded_second (tracked_append happart) havoid (hwell item (mem_otherItems.mp hitem).1)
    (hfirst.expandable item hleft) (hall.expandable item hitem)

omit hwell in
theorem length_sitesOfItems_both (hfirst : Passes answer first items) :
    (sitesOfItems first items).length +
        (sitesOfItems later (expandedItems answer first items)).length =
      (sitesOfItems (first ++ later) items).length + (unseenSites first later items).length := by
  have hexpandable := ((forall_otherItems_iff happart).mp hfirst.expandable).1
  have hleft := (otherItems_perm_append happart items).flatMap_right
    (outermost (bindingsOf first items)) |>.length_eq
  have hrest := length_flatMap_add (a := outermost (bindingsOf first items))
    (c := outermost (bindingsOf (first ++ later) items)) fun item hitem =>
      length_outermost_both (tracked_append happart) havoid (hexpandable item hitem)
  rw [sitesOfItems, hleft, List.flatMap_append, List.length_append, sitesOfItems,
    bindingsOf_between happart hsorted, otherItems_between, List.flatMap_map, unseenSites, laterParts,
    List.flatMap_append, List.length_append, sitesOfItems, List.filter_flatMap, List.flatMap_assoc]
  omega

end

/-! ## Runs in turn -/

theorem runFrom_inTurn_iff {f g : Transform σ} {source : Text} {m result : Tree} {done : Summary}
    {s s' : σ} : (inTurn f g source m).runFrom s = (.ok (result, done), s') ↔
      ∃ between done₁ s₁ done₂, (f.module source m).runFrom s = (.ok (between, done₁), s₁) ∧
        (g.module source between).runFrom s₁ = (.ok (result, done₂), s') ∧
        done = ⟨done₁.removed + done₂.removed, done₁.expanded + done₂.expanded⟩ := by
  rw [inTurn, Work.runFrom_bind]
  cases hfirst : (f.module source m).runFrom s with
  | mk r s₁ =>
    cases r with
    | error e => simp
    | ok changed =>
      obtain ⟨between, done₁⟩ := changed
      simp only [Work.runFrom_bind]
      cases hsecond : (g.module source between).runFrom s₁ with
      | mk r s₂ =>
        cases r with
        | error e =>
          constructor
          · intro h
            cases h
          · rintro ⟨_, _, _, _, hrun, hrun', -⟩
            cases hrun
            rw [hsecond] at hrun'
            cases hrun'
        | ok changed =>
          obtain ⟨last, done₂⟩ := changed
          constructor
          · intro h
            cases h
            exact ⟨between, done₁, s₁, done₂, rfl, hsecond, rfl⟩
          · rintro ⟨_, _, _, _, hrun, hrun', rfl⟩
            cases hrun
            rw [hsecond] at hrun'
            cases hrun'
            rfl

theorem runFrom_inTurn_stateless_iff {source : Text} {hashbang : Option Text} {span : Span}
    {result : Tree} {done : Summary} {s s' : σ} :
    (inTurn (.stateless answer first) (.stateless answer later) source
        (.node (.module hashbang) span items)).runFrom s = (.ok (result, done), s') ↔
      (Passes answer first items ∧ Passes answer later (expandedItems answer first items)) ∧
        result = .node (.module hashbang) span
          (expandedItems answer later (expandedItems answer first items)) ∧
        done = ⟨(summaryOf first items).removed +
            (summaryOf later (expandedItems answer first items)).removed,
          (summaryOf first items).expanded +
            (summaryOf later (expandedItems answer first items)).expanded⟩ ∧ s' = s := by
  rw [runFrom_inTurn_iff]
  constructor
  · rintro ⟨between, done₁, s₁, done₂, hfirst, hlater, rfl⟩
    obtain ⟨hpasses, rfl, rfl, rfl⟩ := runFrom_module_stateless_iff.mp hfirst
    obtain ⟨hpasses', rfl, rfl, rfl⟩ := runFrom_module_stateless_iff.mp hlater
    exact ⟨⟨hpasses, hpasses'⟩, rfl, rfl, rfl⟩
  · rintro ⟨⟨hpasses, hpasses'⟩, rfl, rfl, rfl⟩
    exact ⟨_, _, _, _, runFrom_module_stateless_iff.mpr ⟨hpasses, rfl, rfl, rfl⟩,
      runFrom_module_stateless_iff.mpr ⟨hpasses', rfl, rfl, rfl⟩, rfl⟩

section
variable {m : Tree} (happart : Target.Apart first later) (hm : m.isModule = true)
  (hsorted : m.isWellSorted = true)
  (havoid : Avoids answer (Tracked (bindingsOf (first ++ later) m.parts)))
include happart hm hsorted havoid

theorem runFrom_inTurn_iff_append {source : Text} {result : Tree} {done : Summary} {s s' : σ} :
    (inTurn (.stateless answer first) (.stateless answer later) source m).runFrom s =
        (.ok (result, done), s') ↔
      ∃ whole, ((Transform.stateless answer (first ++ later)).module source m).runFrom s =
          (.ok (result, whole), s') ∧
        (∀ part ∈ laterParts first later m.parts,
          GoesThrough answer (bindingsOf first m.parts) part) ∧
        done = ⟨whole.removed, whole.expanded + (unseenSites first later m.parts).length⟩ := by
  obtain ⟨hashbang, span, items, rfl, hwell⟩ := Tree.of_isModule hm
  have hsorts := (Tree.isWellSorted_node.mp hsorted).2
  have hboth := passes_both_iff happart hwell hsorts havoid
  have hremoved := (bindingsOf_append_perm happart items).length_eq
  rw [List.length_append] at hremoved
  rw [runFrom_inTurn_stateless_iff, hboth]
  constructor
  · rintro ⟨⟨hall, hparts⟩, rfl, rfl, rfl⟩
    have hfirst := (hboth.mpr ⟨hall, hparts⟩).1
    refine ⟨_, runFrom_module_stateless_iff.mpr ⟨hall, ?_, rfl, rfl⟩, hparts, ?_⟩
    · rw [expandedItems_both happart hwell hsorts havoid hfirst hall]
    · have hexpanded := length_sitesOfItems_both happart hsorts havoid hfirst
      simp only [summaryOf, bindingsOf_between happart hsorts, hremoved, hexpanded, Tree.parts_node]
  · rintro ⟨whole, hrun, hparts, rfl⟩
    obtain ⟨hall, rfl, rfl, rfl⟩ := runFrom_module_stateless_iff.mp hrun
    have hfirst := (hboth.mpr ⟨hall, hparts⟩).1
    refine ⟨⟨hall, hparts⟩, ?_, ?_, rfl⟩
    · rw [expandedItems_both happart hwell hsorts havoid hfirst hall]
    · have hexpanded := length_sitesOfItems_both happart hsorts havoid hfirst
      simp only [summaryOf, bindingsOf_between happart hsorts, hremoved, hexpanded, Tree.parts_node]

/-- **Two runs in turn are one run for all targets, except for what that run does not see.** Let no
module be in both lists of targets, and let the precompiler answer by the template alone, without any
tracked name in its answers. Two runs in turn, in either order, succeed with a result just when one
run for all targets succeeds with this result and the first of the two runs goes through all that it
leaves and the one run takes out whole: the imports of the other targets, with their attributes, and
the sites of the others, with their type arguments. They remove as many imports together, and they
expand as many sites and those of the first of them in these parts. -/
theorem runs_in_turn_as_one (source : Text) (s : σ) :
    (∀ result done s', (inTurn (.stateless answer first) (.stateless answer later) source m).runFrom
        s = (.ok (result, done), s') ↔
      ∃ whole, ((Transform.stateless answer (first ++ later)).module source m).runFrom s =
          (.ok (result, whole), s') ∧
        (∀ part ∈ laterParts first later m.parts,
          GoesThrough answer (bindingsOf first m.parts) part) ∧
        done = ⟨whole.removed, whole.expanded + (unseenSites first later m.parts).length⟩) ∧
    ∀ result done s', (inTurn (.stateless answer later) (.stateless answer first) source m).runFrom
        s = (.ok (result, done), s') ↔
      ∃ whole, ((Transform.stateless answer (first ++ later)).module source m).runFrom s =
          (.ok (result, whole), s') ∧
        (∀ part ∈ laterParts later first m.parts,
          GoesThrough answer (bindingsOf later m.parts) part) ∧
        done = ⟨whole.removed, whole.expanded + (unseenSites later first m.parts).length⟩ := by
  have havoid' : Avoids answer (Tracked (bindingsOf (later ++ first) m.parts)) := by
    intro template span expression hanswer name htracked
    apply havoid template span expression hanswer name
    rw [tracked_append happart.symm, or_comm, ← tracked_append happart] at htracked
    exact htracked
  have hcomm : (Transform.stateless answer (later ++ first) : Transform σ).module source m =
      (Transform.stateless answer (first ++ later)).module source m :=
    (module_append_comm happart (.stateless answer) source m).symm
  refine ⟨fun result done s' => runFrom_inTurn_iff_append happart hm hsorted havoid,
    fun result done s' => ?_⟩
  rw [runFrom_inTurn_iff_append happart.symm hm hsorted havoid', hcomm]

theorem runFrom_inTurn_iff_of_unmixed
    (hunmixed : ∀ part ∈ laterParts first later m.parts, ∀ b ∈ bindingsOf first m.parts,
      ¬ Mentions b.name part) {source : Text} {result : Tree} {done : Summary} {s s' : σ} :
    (inTurn (.stateless answer first) (.stateless answer later) source m).runFrom s =
        (.ok (result, done), s') ↔
      ((Transform.stateless answer (first ++ later)).module source m).runFrom s =
        (.ok (result, done), s') := by
  have hnone : ∀ part ∈ laterParts first later m.parts,
      outermost (bindingsOf first m.parts) part = [] :=
    fun part hpart => outermost_of_not_mentions (hunmixed part hpart)
  have hthrough : ∀ part ∈ laterParts first later m.parts,
      GoesThrough answer (bindingsOf first m.parts) part := by
    intro part hpart
    constructor
    · rintro o ho ⟨b, hb, hname⟩
      apply hunmixed part hpart b hb
      rw [hname]
      exact mentions_of_mem_declarations ho
    · intro u hu
      rw [hnone part hpart] at hu
      cases hu
  have hunseen : unseenSites first later m.parts = [] := List.flatMap_eq_nil_iff.mpr hnone
  rw [runFrom_inTurn_iff_append happart hm hsorted havoid, hunseen]
  constructor
  · rintro ⟨whole, hrun, -, rfl⟩
    exact hrun
  · intro hrun
    exact ⟨done, hrun, hthrough, rfl⟩

end

section
open Sample

/-- A target whose module is named like its tag. -/
def Sample.targetOf (name : Text) : Target := ⟨name, Target.defaultExport⟩

def Sample.importOf (name : Text) : Tree :=
  .item (.import false .evaluation) .nowhere
    [.list [.ofPart .importDefault .nowhere [partWord name]],
      .ofPart (.string name none) .nowhere [], .absent]

def Sample.innerUse (arguments : List Tree) : Tree :=
  callOf (text "a") arguments .absent ⟨40, 46⟩

/-- `b<{ [key]: string }>('d')` -/
def Sample.outerUse (key : Tree) : Tree :=
  callOf (text "b") [literal (text "d")]
    (.ofPart .typeArgs .nowhere [.type .object .nowhere
      [.typeElement (.property false true false) .nowhere
        [key, .ofPart .annotatedType .nowhere [.type (.keyword "string") .nowhere []]]]])
    ⟨35, 60⟩

/-- A module with both imports and a use of the tag `b` with a call of `a` in its type arguments. -/
def Sample.mixedModule (arguments : List Tree) : Tree :=
  moduleOf [importOf (text "a"), importOf (text "b"), statement (outerUse (innerUse arguments))]

def Sample.expandedModule : Tree :=
  moduleOf [statement (templateCall (literal (text "d")) ⟨35, 60⟩)]

def Sample.betweenModule : Tree :=
  moduleOf [importOf (text "b"),
    statement (outerUse (templateCall (literal (text "c")) ⟨40, 46⟩))]

def Sample.literalAnswer (template : Text) : Answer := .expression (literal template)

theorem avoids_literalAnswer (names : Text → Prop) : Avoids literalAnswer names := by
  rintro template span expression hanswer name - ⟨u, hu, hmention⟩
  cases hanswer
  obtain rfl : u = literal template := List.mem_singleton.mp hu
  rcases hmention with hname | hname
  · cases hname
  · cases hname

/-- A use of the one tag in the type arguments of a use of the other: the run for both targets takes it
out with them, and the run for its own target in the first place expands it. -/
theorem runs_in_turn_as_one_mixed :
    let a := [targetOf (text "a")]
    let b := [targetOf (text "b")]
    let m := mixedModule [literal (text "c")]
    let run := fun targets =>
      ((Transform.stateless literalAnswer targets : Transform Unit).module [] m).runFrom ()
    let turns := fun first later => (inTurn (.stateless literalAnswer first : Transform Unit)
      (.stateless literalAnswer later) [] m).runFrom ()
    (Target.Apart a b ∧ m.isModule = true ∧ m.isWellSorted = true ∧
      Avoids literalAnswer (Tracked (bindingsOf (a ++ b) m.parts)) ∧
      run (a ++ b) = (.ok (expandedModule, ⟨2, 1⟩), ()) ∧
      (unseenSites a b m.parts).length = 1 ∧ (unseenSites b a m.parts).length = 0) ∧
    turns a b = (.ok (expandedModule, ⟨2, 2⟩), ()) ∧
      turns b a = (.ok (expandedModule, ⟨2, 1⟩), ()) := by
  intro a b m run turns
  have happart : Target.Apart a b := by decide
  have havoid : Avoids literalAnswer (Tracked (bindingsOf (a ++ b) m.parts)) :=
    avoids_literalAnswer _
  have hrun : run (a ++ b) = (.ok (expandedModule, ⟨2, 1⟩), ()) := rfl
  have hm : m.isModule = true := rfl
  have hsorted : m.isWellSorted = true := by decide
  obtain ⟨hab, hba⟩ := runs_in_turn_as_one happart hm hsorted havoid [] ()
  exact ⟨⟨happart, hm, hsorted, havoid, hrun, rfl, rfl⟩,
    (hab _ _ _).mpr ⟨⟨2, 1⟩, hrun, by decide, rfl⟩, (hba _ _ _).mpr ⟨⟨2, 1⟩, hrun, by decide, rfl⟩⟩

/-- **The first of two runs may find what one run does not see.** With the use in the type arguments,
two runs in turn count one site more than the run for both targets. Where that use is an error, the
run for both targets succeeds and the first of two runs fails. -/
theorem first_run_sees_more :
    let a := [targetOf (text "a")]
    let b := [targetOf (text "b")]
    let run := fun m =>
      ((Transform.stateless literalAnswer (a ++ b) : Transform Unit).module [] m).runFrom ()
    let turns := fun m => (inTurn (.stateless literalAnswer a : Transform Unit)
      (.stateless literalAnswer b) [] m).runFrom ()
    ((a ++ b).map Target.source).Nodup ∧ (∀ names, Avoids literalAnswer names) ∧
    run (mixedModule [literal (text "c")]) = (.ok (expandedModule, ⟨2, 1⟩), ()) ∧
    turns (mixedModule [literal (text "c")]) = (.ok (expandedModule, ⟨2, 2⟩), ()) ∧
    run (mixedModule []) = (.ok (expandedModule, ⟨2, 1⟩), ()) ∧
    turns (mixedModule []) = (.error ⟨⟨40, 46⟩, .arity (text "a")⟩, ()) := by
  intro a b run turns
  have hturns : turns (mixedModule [literal (text "c")]) = (.ok (expandedModule, ⟨2, 2⟩), ()) :=
    runFrom_inTurn_iff.mpr ⟨betweenModule, ⟨1, 1⟩, (), ⟨1, 1⟩, rfl, rfl, rfl⟩
  exact ⟨by decide, avoids_literalAnswer, rfl, hturns, rfl, rfl⟩

end

end InlineTemplates
