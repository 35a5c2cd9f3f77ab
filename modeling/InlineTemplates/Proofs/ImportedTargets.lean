import InlineTemplates.Proofs.ImportScan
import InlineTemplates.Proofs.Serving
import InlineTemplates.Proofs.SplitTargets

/-! # Targets that a module imports from

Of a list of targets only those count that some item of the module imports from, and their order
does not. -/

namespace InlineTemplates

open Script (Tree)

variable {σ : Type}

/-- Some item of the module imports from the module of the target. -/
def Target.isImportedIn (m : Tree) (t : Target) : Bool :=
  m.parts.any fun item => importSource? item == some t.source

/-- The lists have the same targets that the module imports from, in any order. -/
def Target.AlikeFor (m : Tree) (first other : List Target) : Prop :=
  (first.filter (·.isImportedIn m)).Perm (other.filter (·.isImportedIn m))

namespace Target.AlikeFor

variable {m : Tree} {first other : List Target}

theorem of_perm (h : first.Perm other) : AlikeFor m first other := h.filter _

theorem insert {front back more : List Target}
    (h : ∀ t ∈ more, ∀ item ∈ m.parts, importSource? item ≠ some t.source) :
    AlikeFor m (front ++ back) (front ++ more ++ back) := by
  have hmore : more.filter (·.isImportedIn m) = [] := by
    simpa [isImportedIn] using h
  unfold AlikeFor
  rw [List.filter_append, List.filter_append, List.filter_append, hmore, List.append_nil]

theorem symm (h : AlikeFor m first other) : AlikeFor m other first := List.Perm.symm h

theorem trans {last : List Target} (h : AlikeFor m first other) (h' : AlikeFor m other last) :
    AlikeFor m first last := List.Perm.trans h h'

end Target.AlikeFor

theorem Target.find?_imported {m item : Tree} {source : Text} (hitem : item ∈ m.parts)
    (hsource : importSource? item = some source) (targets : List Target) :
    find? (targets.filter (·.isImportedIn m)) source = find? targets source := by
  unfold find?
  rw [List.find?_filter]
  congr 1
  funext t
  have himported (h : t.source = source) : t.isImportedIn m = true :=
    List.any_eq_true.mpr ⟨item, hitem, beq_iff_eq.mpr (h ▸ hsource)⟩
  rw [Bool.eq_iff_iff, decide_eq_true_iff, beq_iff_eq]
  exact and_iff_right_of_imp himported

theorem importTarget?_alike {m item : Tree} {first other : List Target}
    (hdistinct : (first.map Target.source).Nodup) (h : Target.AlikeFor m first other)
    (hitem : item ∈ m.parts) : importTarget? first item = importTarget? other item := by
  unfold importTarget?
  cases hsource : importSource? item with
  | none => rfl
  | some source =>
    have hnodup : ((first.filter (·.isImportedIn m)).map Target.source).Nodup :=
      hdistinct.sublist (List.filter_sublist.map _)
    rw [Option.bind_some, Option.bind_some, ← Target.find?_imported hitem hsource first,
      ← Target.find?_imported hitem hsource other]
    exact find?_key_perm hnodup h source

/-- **Only the targets that a module imports from matter, and not their order.** A run with other
targets, or with the same ones in another order, gives the same module and summary or the same error,
texts and span included, leaves the precompiler in the same state, and asks it for the same templates
in the same order. -/
theorem only_imported_targets_matter {p : Precompiler σ} {first other : List Target} {m : Tree}
    (hdistinct : (first.map Target.source).Nodup) (h : Target.AlikeFor m first other)
    (source : Text) (s : σ) :
    ((Transform.mk p other).module source m).runFrom s =
      ((Transform.mk p first).module source m).runFrom s ∧
    ((Transform.mk p other).recorded.module source m).runFrom (s, []) =
      ((Transform.mk p first).recorded.module source m).runFrom (s, []) := by
  have hitems : ∀ item ∈ m.parts, importTarget? other item = importTarget? first item :=
    fun item hitem => (importTarget?_alike hdistinct h hitem).symm
  have hrun {τ : Type} (q : Precompiler τ) :
      (Transform.mk q other).module source m = (Transform.mk q first).module source m :=
    module_congr q source hitems
  exact ⟨congrArg (·.runFrom s) (hrun p), congrArg (·.runFrom (s, [])) (hrun p.recorded)⟩

section
open Sample

/-- Two targets change places, one that the module does not import from goes and another one comes. -/
theorem only_imported_targets_matter_swapped :
    let tags : Target := ⟨text "tags", text "tpl"⟩
    let first : List Target := [⟨text "gone", text "tpl"⟩, Target.standard, tags]
    let other : List Target := [tags, Target.standard, ⟨text "new", text "tpl"⟩]
    let m := moduleOf [quotedImport, tagImport, statement plainUse]
    let result := moduleOf [statement (templateCall (literal (text "a")) plainUse.span)]
    ((first.map Target.source).Nodup ∧ Target.AlikeFor m first other) ∧
    ((Transform.mk transform.precompiler first).module [] m).runFrom () =
      (.ok (result, ⟨2, 1⟩), ()) ∧
    ((Transform.mk transform.precompiler other).module [] m).runFrom () =
      ((Transform.mk transform.precompiler first).module [] m).runFrom () ∧
    ((Transform.mk transform.precompiler other).recorded.module [] m).runFrom ((), []) =
      ((Transform.mk transform.precompiler first).recorded.module [] m).runFrom ((), []) := by
  intro tags first other m result
  have hdistinct : (first.map Target.source).Nodup := by decide
  have hgone : Target.AlikeFor m [Target.standard, tags] first :=
    @Target.AlikeFor.insert m [] [Target.standard, tags] [⟨text "gone", text "tpl"⟩] (by decide)
  have hnew : Target.AlikeFor m ([tags, Target.standard] ++ []) (other ++ []) :=
    @Target.AlikeFor.insert m [tags, Target.standard] [] [⟨text "new", text "tpl"⟩] (by decide)
  rw [List.append_nil, List.append_nil] at hnew
  have halike : Target.AlikeFor m first other :=
    (hgone.symm.trans (.of_perm (.swap tags Target.standard []))).trans hnew
  exact ⟨⟨hdistinct, halike⟩, rfl, only_imported_targets_matter hdistinct halike [] ()⟩

end

end InlineTemplates
