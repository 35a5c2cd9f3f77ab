import InlineTemplates.ImportTracking
import InlineTemplates.Proofs.SiteShape

/-! # What is left of a module after its imports were tracked -/

namespace InlineTemplates

open Script (Tree Kind)

/-! ## What an item imports from -/

def stringValue? : Tree → Option Text
  | .node (.part (.string value _)) _ _ => some value
  | _ => none

theorem SameRoot.stringValue?_eq {t u : Tree} (h : SameRoot t u) :
    stringValue? t = stringValue? u := by
  refine h.congr (fun kind _ _ _ _ => ?_) (fun _ _ => rfl) (fun _ _ => rfl)
  cases kind with
  | part k => cases k <;> rfl
  | _ => rfl

theorem importSource?_of_kind {kind : Kind} {span : Span} {parts : List Tree}
    (h : ∀ typeOnly phase, kind ≠ .item (.import typeOnly phase)) :
    importSource? (.node kind span parts) = none := by
  unfold importSource?
  split
  · next heq => exact absurd (congrArg Tree.kind heq) (h _ _)
  · rfl

theorem importSource?_of_isApplied {t : Tree} (h : t.kind.isApplied = true) :
    importSource? t = none := by
  obtain ⟨kind, span, parts⟩ := t
  apply importSource?_of_kind
  rintro typeOnly phase rfl
  cases h

theorem importSource?_import (typeOnly : Bool) (phase : Script.ImportPhase) (span : Span)
    (parts : List Tree) : importSource? (.node (.item (.import typeOnly phase)) span parts) =
      if parts.length = 3 then parts[1]?.bind stringValue? else none := by
  match parts with
  | [] | [_] | [_, _] | _ :: _ :: _ :: _ :: _ => simp [importSource?]
  | [_, .node kind _ _, _] =>
    cases kind with
    | part k => cases k <;> rfl
    | _ => rfl

theorem importSource?_congr {kind : Kind} {span span' : Span} {parts parts' : List Tree}
    (hlen : parts.length = parts'.length)
    (hsecond : parts[1]?.bind stringValue? = parts'[1]?.bind stringValue?) :
    importSource? (.node kind span parts) = importSource? (.node kind span' parts') := by
  by_cases h : ∃ typeOnly phase, kind = .item (.import typeOnly phase)
  · obtain ⟨typeOnly, phase, rfl⟩ := h
    rw [importSource?_import, importSource?_import, hlen, hsecond]
  · have hkind : ∀ typeOnly phase, kind ≠ .item (.import typeOnly phase) :=
      fun typeOnly phase heq => h ⟨typeOnly, phase, heq⟩
    rw [importSource?_of_kind hkind, importSource?_of_kind hkind]

/-! ## Accepted imports -/

theorem SameRoot.writtenName?_eq {t u : Tree} (h : SameRoot t u) :
    writtenName? t = writtenName? u := by
  refine h.congr (fun kind _ _ _ _ => ?_) (fun _ _ => rfl) (fun _ _ => rfl)
  cases kind with
  | part k => cases k <;> rfl
  | _ => rfl

theorem SameRoot.isAbsent_eq {t u : Tree} (h : SameRoot t u) : t.isAbsent = u.isAbsent :=
  h.congr (fun kind _ _ _ _ => by cases kind <;> rfl) (fun _ _ => rfl) (fun _ _ => rfl)

/-- The name that a specifier of an accepted import leaves. -/
def specifierName? (target : Target) (specifier : Tree) : Option Text :=
  acceptedName? target (.node (.item (.import false .evaluation)) .nowhere [.list [specifier]])

def soleName? (target : Target) (specifiers : Tree) : Option Text :=
  match specifiers.parts with
  | [specifier] => specifierName? target specifier
  | _ => none

theorem acceptedName?_import {target : Target} {phase : Script.ImportPhase} {span : Span}
    (parts : List Tree) : acceptedName? target (.node (.item (.import false phase)) span parts) =
      parts.head?.bind (soleName? target) := by
  match parts with
  | [] => simp [acceptedName?]
  | .node _ _ [] :: _ => simp [acceptedName?, soleName?]
  | .node _ _ [_] :: _ => rfl
  | .node _ _ (_ :: _ :: _) :: _ => simp [acceptedName?, soleName?]

theorem acceptedName?_of_isApplied {target : Target} {t : Tree} (h : t.kind.isApplied = true) :
    acceptedName? target t = none := by
  obtain ⟨kind, span, parts⟩ := t
  rcases Script.Kind.of_isApplied h with rfl | rfl
  · rfl
  · rfl

theorem specifierName?_of_isApplied {target : Target} {t : Tree} (h : t.kind.isApplied = true) :
    specifierName? target t = none := by
  obtain ⟨kind, span, parts⟩ := t
  rcases Script.Kind.of_isApplied h with rfl | rfl
  · rfl
  · rfl

/-! ## Imports of targets -/

def importsFrom (targets : List Target) (item : Tree) : Bool :=
  targets.any fun t => importSource? item == some t.source

theorem importsFrom_eq_isSome (targets : List Target) (item : Tree) :
    importsFrom targets item = (importTarget? targets item).isSome := by
  rw [importsFrom, importTarget?]
  cases importSource? item with
  | none => simp
  | some source =>
    rw [Option.bind_some, Target.find?, List.isSome_find?]
    refine congrArg targets.any (funext fun t => ?_)
    exact BEq.comm

theorem rest_of_trackImports {targets : List Target} {source : Text} {m rest : Tree}
    {bindings : List Binding} (h : trackImports targets source m = .ok (bindings, rest)) :
    rest = .node m.kind m.span (m.parts.filter fun item => !importsFrom targets item) := by
  unfold trackImports at h
  split at h
  · cases h
  · cases h
    simp [otherItems, importsFrom_eq_isSome]

theorem isWellFormed_rest {targets : List Target} {source : Text} {m rest : Tree}
    {bindings : List Binding} (hm : m.isModule = true)
    (h : trackImports targets source m = .ok (bindings, rest)) : rest.isWellFormed = true := by
  unfold Tree.isModule at hm
  split at hm
  · next hashbang span items =>
    rw [rest_of_trackImports h, Tree.isWellFormed_node]
    refine ⟨rfl, Tree.areWellFormed_iff.mpr fun item hitem => ?_⟩
    exact Tree.areWellFormed_iff.mp hm item (List.mem_filter.mp hitem).1
  · cases hm

end InlineTemplates
