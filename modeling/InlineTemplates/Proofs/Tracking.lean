import InlineTemplates.Proofs.Imports
import Mathlib.Data.List.Nodup
import Mathlib.Data.List.Pairwise

/-! # Tracking without an order

Tracking goes through the items one after the other and stops at the first import that it refuses.
What it accepts can be said without an order: each import of a target has the accepted form, and no
two of the bindings agree in their source or in their name. -/

namespace InlineTemplates

open Script (Tree Kind)

variable {targets : List Target} {source : Text}

/-! ## Bindings -/

/-- The binding that an item leaves by itself: none if it is no import of a target, or one in another
form than the accepted one. -/
def bindingOf? (targets : List Target) (item : Tree) : Option Binding :=
  (importTarget? targets item).bind fun target =>
    (acceptedName? target item).map fun name => ⟨target.source, name⟩

def bindingsOf (targets : List Target) (items : List Tree) : List Binding :=
  items.filterMap (bindingOf? targets)

/-- The bindings may stand in one module. -/
def Binding.Apart (b c : Binding) : Prop := b.source ≠ c.source ∧ b.name ≠ c.name

theorem Binding.Apart.symm {b c : Binding} (h : b.Apart c) : c.Apart b := ⟨h.1.symm, h.2.symm⟩

/-- The imports of a list of items can be tracked. -/
structure Trackable (targets : List Target) (items : List Tree) : Prop where
  accepted : ∀ item ∈ items, (importTarget? targets item).isSome = true →
    (bindingOf? targets item).isSome = true
  apart : (bindingsOf targets items).Pairwise Binding.Apart

theorem bindingOf?_of_none {item : Tree} (h : importTarget? targets item = none) :
    bindingOf? targets item = none := by
  rw [bindingOf?, h]
  rfl

theorem bindingOf?_of_some {item : Tree} {target : Target}
    (h : importTarget? targets item = some target) :
    bindingOf? targets item =
      (acceptedName? target item).map fun name => ⟨target.source, name⟩ := by
  rw [bindingOf?, h]
  rfl

theorem of_bindingOf? {item : Tree} {b : Binding} (h : bindingOf? targets item = some b) :
    ∃ target, importTarget? targets item = some target ∧
      acceptedName? target item = some b.name ∧ target.source = b.source := by
  obtain ⟨target, htarget, h⟩ := Option.bind_eq_some_iff.mp h
  obtain ⟨name, hname, rfl⟩ := Option.map_eq_some_iff.mp h
  exact ⟨target, htarget, hname, rfl⟩

theorem bindingOf_eq_ok_iff {found : List Binding} {target : Target} {item : Tree} {b : Binding} :
    bindingOf source found target item = .ok b ↔
      (acceptedName? target item).map (fun name => ⟨target.source, name⟩) = some b ∧
        ∀ c ∈ found, c.Apart b := by
  unfold bindingOf
  cases hname : acceptedName? target item with
  | none => simp
  | some name =>
    dsimp only [Option.map_some]
    split
    · next hfound =>
      obtain ⟨c, hc, hsame⟩ := List.any_eq_true.mp hfound
      simp only [Bool.or_eq_true, beq_iff_eq] at hsame
      constructor
      · intro h
        cases h
      · rintro ⟨hb, hapart⟩
        have hb : (⟨target.source, name⟩ : Binding) = b := Option.some.inj hb
        obtain ⟨hsource, hother⟩ := hapart c hc
        rw [← hb] at hsource hother
        rcases hsame with h | h
        · exact absurd h hsource
        · exact absurd h hother
    · next hfound =>
      have hfound : ∀ c ∈ found, c.source ≠ target.source ∧ c.name ≠ name := by
        simpa using hfound
      constructor
      · intro h
        have hb : (⟨target.source, name⟩ : Binding) = b := Except.ok.inj h
        subst hb
        exact ⟨rfl, hfound⟩
      · rintro ⟨hb, -⟩
        exact congrArg Except.ok (Option.some.inj hb)

/-- **Tracking succeeds just when each import of a target is accepted and all bindings are apart.** It
then adds the bindings of the items to those that it had. -/
theorem bindingsAfter_eq_ok_iff {found bindings : List Binding} {items : List Tree}
    (hfound : found.Pairwise Binding.Apart) :
    bindingsAfter targets source found items = .ok bindings ↔
      (∀ item ∈ items, (importTarget? targets item).isSome = true →
        (bindingOf? targets item).isSome = true) ∧
      bindings = found ++ bindingsOf targets items ∧
      (found ++ bindingsOf targets items).Pairwise Binding.Apart := by
  induction items generalizing found with
  | nil =>
    simp only [bindingsAfter, bindingsOf, List.filterMap_nil, List.append_nil]
    constructor
    · intro h
      exact ⟨by simp, (Except.ok.inj h).symm, hfound⟩
    · rintro ⟨-, rfl, -⟩
      rfl
  | cons item rest ih =>
    rw [bindingsAfter, List.forall_mem_cons]
    cases htarget : importTarget? targets item with
    | none =>
      have hnone := bindingOf?_of_none htarget
      have hbindings : bindingsOf targets (item :: rest) = bindingsOf targets rest :=
        List.filterMap_cons_none hnone
      rw [hbindings]
      simpa using ih hfound
    | some target =>
      have hhere := bindingOf?_of_some htarget
      dsimp only
      cases hb : bindingOf source found target item with
      | error e =>
        constructor
        · intro h
          cases h
        · rintro ⟨⟨haccepted, -⟩, -, hapart⟩
          obtain ⟨b, hsome⟩ := Option.isSome_iff_exists.mp (haccepted rfl)
          have hbindings : bindingsOf targets (item :: rest) = b :: bindingsOf targets rest :=
            List.filterMap_cons_some hsome
          rw [hbindings, List.pairwise_append] at hapart
          have hok : bindingOf source found target item = .ok b := bindingOf_eq_ok_iff.mpr
            ⟨hhere.symm.trans hsome, fun c hc => hapart.2.2 c hc b List.mem_cons_self⟩
          rw [hb] at hok
          cases hok
      | ok b =>
        obtain ⟨hsome, hbefore⟩ := bindingOf_eq_ok_iff.mp hb
        rw [← hhere] at hsome
        have hbindings : found ++ bindingsOf targets (item :: rest) =
            (found ++ [b]) ++ bindingsOf targets rest := by
          rw [bindingsOf, List.filterMap_cons_some hsome, List.append_assoc]
          rfl
        have hpairwise : (found ++ [b]).Pairwise Binding.Apart := by
          rw [List.pairwise_append]
          refine ⟨hfound, List.pairwise_singleton _ _, fun c hc d hd => ?_⟩
          rw [List.mem_singleton.mp hd]
          exact hbefore c hc
        dsimp only
        rw [ih hpairwise, hbindings, hsome]
        simp

theorem trackImports_eq_ok_iff {m rest : Tree} {bindings : List Binding} :
    trackImports targets source m = .ok (bindings, rest) ↔
      Trackable targets m.parts ∧ bindings = bindingsOf targets m.parts ∧
        rest = .node m.kind m.span (otherItems targets m.parts) := by
  have hall : bindingsAfter targets source [] m.parts = .ok bindings ↔ _ :=
    bindingsAfter_eq_ok_iff List.Pairwise.nil
  rw [List.nil_append] at hall
  unfold trackImports
  constructor
  · intro h
    split at h
    · cases h
    · next found hok =>
      obtain ⟨rfl, rfl⟩ := Prod.mk.inj (Except.ok.inj h)
      obtain ⟨haccepted, rfl, hapart⟩ := hall.mp hok
      exact ⟨⟨haccepted, hapart⟩, rfl, rfl⟩
  · rintro ⟨⟨haccepted, hapart⟩, hbindings, rfl⟩
    rw [hall.mpr ⟨haccepted, hbindings, hapart⟩]

/-! ## Other orders -/

section
variable {items items' : List Tree}

theorem bindingsOf_perm (h : items.Perm items') :
    (bindingsOf targets items).Perm (bindingsOf targets items') :=
  h.filterMap (bindingOf? targets)

theorem otherItems_perm (h : items.Perm items') :
    (otherItems targets items).Perm (otherItems targets items') :=
  h.filter _

theorem Trackable.perm (h : items.Perm items') (htrack : Trackable targets items) :
    Trackable targets items' where
  accepted := fun item hitem => htrack.accepted item (h.mem_iff.mpr hitem)
  apart := (bindingsOf_perm h).pairwise htrack.apart Binding.Apart.symm

end

theorem find?_key_eq_some_iff {α : Type} {key : α → Text} {entries : List α}
    (h : (entries.map key).Nodup) {k : Text} {a : α} :
    entries.find? (key · == k) = some a ↔ a ∈ entries ∧ key a = k := by
  have hkey {b : α} (hb : entries.find? (key · == k) = some b) : key b = k := by
    simpa using List.find?_some hb
  constructor
  · intro ha
    exact ⟨List.mem_of_find?_eq_some ha, hkey ha⟩
  · rintro ⟨ha, rfl⟩
    have hsome : (entries.find? (key · == key a)).isSome = true :=
      List.find?_isSome.mpr ⟨a, ha, by simp⟩
    obtain ⟨b, hb⟩ := Option.isSome_iff_exists.mp hsome
    have heq : b = a := List.inj_on_of_nodup_map h (List.mem_of_find?_eq_some hb) ha (hkey hb)
    rw [hb, heq]

theorem find?_key_perm {α : Type} {key : α → Text} {entries entries' : List α}
    (h : (entries.map key).Nodup) (hperm : entries.Perm entries') (k : Text) :
    entries.find? (key · == k) = entries'.find? (key · == k) := by
  have h' : (entries'.map key).Nodup := (hperm.map key).nodup h
  apply Option.ext
  intro a
  rw [find?_key_eq_some_iff h, find?_key_eq_some_iff h', hperm.mem_iff]

theorem Binding.find?_eq_some_iff_of_nodup {bindings : List Binding}
    (h : (bindings.map (·.name)).Nodup) {name : Text} {b : Binding} :
    find? bindings name = some b ↔ b ∈ bindings ∧ b.name = name :=
  find?_key_eq_some_iff h

theorem Binding.find?_perm_of_nodup {bindings bindings' : List Binding}
    (h : (bindings.map (·.name)).Nodup) (hperm : bindings.Perm bindings') (name : Text) :
    find? bindings name = find? bindings' name :=
  find?_key_perm h hperm name

theorem Binding.nodup_of_apart {bindings : List Binding} (h : bindings.Pairwise Binding.Apart) :
    (bindings.map (·.name)).Nodup :=
  List.pairwise_map.mpr (h.imp fun hapart => hapart.2)

theorem Binding.find?_perm {bindings bindings' : List Binding}
    (h : bindings.Pairwise Binding.Apart) (hperm : bindings.Perm bindings') (name : Text) :
    find? bindings name = find? bindings' name :=
  find?_perm_of_nodup (nodup_of_apart h) hperm name

end InlineTemplates
