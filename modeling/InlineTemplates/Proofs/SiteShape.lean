import InlineTemplates.Script.WellFormed
import InlineTemplates.Site

/-! # What a site looks like -/

namespace InlineTemplates

open Script (Tree Kind)

theorem of_siteOf? {bindings : List Binding} {t : Tree} {site : Site}
    (h : siteOf? bindings t = some site) :
    (∃ head typeArgs template name,
      t = .node (.expr .tagged) site.span [head, typeArgs, template] ∧
      plainName? head = some name ∧ Binding.find? bindings name = some site.binding ∧
      site.form = .tagged (template.items 0) (template.items 1)) ∨
    (∃ head arguments others name,
      t = .node (.expr .call) site.span (head :: arguments :: others) ∧
      plainName? head = some name ∧ Binding.find? bindings name = some site.binding ∧
      site.form = .call arguments.parts) := by
  unfold siteOf? at h
  split at h
  · next span head typeArgs template =>
    obtain ⟨name, hname, h⟩ := Option.bind_eq_some_iff.mp h
    obtain ⟨b, hb, h⟩ := Option.bind_eq_some_iff.mp h
    cases h
    exact .inl ⟨head, typeArgs, template, name, rfl, hname, hb, rfl⟩
  · next span head arguments others =>
    obtain ⟨name, hname, h⟩ := Option.bind_eq_some_iff.mp h
    obtain ⟨b, hb, h⟩ := Option.bind_eq_some_iff.mp h
    cases h
    exact .inr ⟨head, arguments, others, name, rfl, hname, hb, rfl⟩
  · cases h

theorem span_of_siteOf? {bindings : List Binding} {t : Tree} {site : Site}
    (h : siteOf? bindings t = some site) : t.span = site.span := by
  rcases of_siteOf? h with ⟨_, _, _, _, rfl, -⟩ | ⟨_, _, _, _, rfl, -⟩
  · rfl
  · rfl

theorem siteOf?_of_kind {bindings : List Binding} {kind : Kind} {span : Span} {parts : List Tree}
    (htagged : kind ≠ .expr .tagged) (hcall : kind ≠ .expr .call) :
    siteOf? bindings (.node kind span parts) = none := by
  cases h : siteOf? bindings (.node kind span parts) with
  | none => rfl
  | some site =>
    rcases of_siteOf? h with ⟨_, _, _, _, heq, -⟩ | ⟨_, _, _, _, heq, -⟩
    · exact absurd (congrArg Tree.kind heq) htagged
    · exact absurd (congrArg Tree.kind heq) hcall

theorem of_plainName? {t : Tree} {name : Text} (h : plainName? t = some name) :
    ∃ span parts, t = .node (.expr (.name name)) span parts := by
  unfold plainName? at h
  split at h
  · cases h
    exact ⟨_, _, rfl⟩
  · cases h

/-! ## Roots -/

theorem Script.Kind.of_isApplied {kind : Kind} (h : kind.isApplied = true) :
    kind = .expr .tagged ∨ kind = .expr .call := by
  unfold isApplied at h
  split at h
  · exact .inl rfl
  · exact .inr rfl
  · cases h

theorem isApplied_of_siteOf? {bindings : List Binding} {t : Tree} {site : Site}
    (h : siteOf? bindings t = some site) : t.kind.isApplied = true := by
  rcases of_siteOf? h with ⟨_, _, _, _, rfl, -⟩ | ⟨_, _, _, _, rfl, -⟩
  · rfl
  · rfl

/-- Two nodes have the same kind, or each is a tagged template or a call. -/
def SameRoot (t u : Tree) : Prop :=
  t.kind = u.kind ∨ t.kind.isApplied = true ∧ u.kind.isApplied = true

theorem SameRoot.congr {α : Type} {t u : Tree} {f : Tree → α} {a : α} (h : SameRoot t u)
    (hkind : ∀ kind s s' ps ps', f (.node kind s ps) = f (.node kind s' ps'))
    (htagged : ∀ s ps, f (.node (.expr .tagged) s ps) = a)
    (hcall : ∀ s ps, f (.node (.expr .call) s ps) = a) : f t = f u := by
  have happlied : ∀ v : Tree, v.kind.isApplied = true → f v = a := by
    rintro ⟨kind, s, ps⟩ hv
    rcases Script.Kind.of_isApplied hv with heq | heq
    · obtain rfl := heq
      exact htagged s ps
    · obtain rfl := heq
      exact hcall s ps
  rcases h with h | ⟨ht, hu⟩
  · cases t with
    | node kind s ps =>
      cases u with
      | node kind' s' ps' =>
        obtain rfl : kind = kind' := h
        exact hkind kind s s' ps ps'
  · rw [happlied t ht, happlied u hu]

theorem SameRoot.plainName?_eq {t u : Tree} (h : SameRoot t u) : plainName? t = plainName? u := by
  refine h.congr (fun kind _ _ _ _ => ?_) (fun _ _ => rfl) (fun _ _ => rfl)
  cases kind with
  | expr k => cases k <;> rfl
  | _ => rfl

theorem SameRoot.isApplied_eq {t u : Tree} (h : SameRoot t u) :
    t.kind.isApplied = u.kind.isApplied := by
  rcases h with h | ⟨ht, hu⟩
  · rw [h]
  · rw [ht, hu]

/-! ## Which nodes are sites -/

section
variable {bindings : List Binding} {span : Span}

theorem siteOf?_tagged (head typeArgs template : Tree) :
    siteOf? bindings (.node (.expr .tagged) span [head, typeArgs, template]) =
      (plainName? head).bind fun n => (Binding.find? bindings n).map fun b =>
        ⟨b, span, .tagged (template.items 0) (template.items 1)⟩ := by
  cases hname : plainName? head with
  | none => simp [siteOf?, hname]
  | some n => cases hb : Binding.find? bindings n <;> simp [siteOf?, hname, hb]

theorem siteOf?_call (head arguments : Tree) (others : List Tree) :
    siteOf? bindings (.node (.expr .call) span (head :: arguments :: others)) =
      (plainName? head).bind fun n => (Binding.find? bindings n).map fun b =>
        ⟨b, span, .call arguments.parts⟩ := by
  cases hname : plainName? head with
  | none => simp [siteOf?, hname]
  | some n => cases hb : Binding.find? bindings n <;> simp [siteOf?, hname, hb]

/-- The name in front of a tagged template or a call, and how the template is handed over. -/
def useOf? : Tree → Option (Text × SiteForm)
  | .node (.expr .tagged) _ [head, _, template] =>
    (plainName? head).map fun n => (n, .tagged (template.items 0) (template.items 1))
  | .node (.expr .call) _ (head :: arguments :: _) =>
    (plainName? head).map fun n => (n, .call arguments.parts)
  | _ => none

theorem siteOf?_eq_use (t : Tree) : siteOf? bindings t =
    (useOf? t).bind fun use => (Binding.find? bindings use.1).map fun b => ⟨b, t.span, use.2⟩ := by
  unfold useOf?
  split
  · rw [siteOf?_tagged, Option.bind_map]
    rfl
  · rw [siteOf?_call, Option.bind_map]
    rfl
  · next htagged hcall =>
    unfold siteOf?
    split
    · next span head typeArgs template => exact absurd rfl (htagged span head typeArgs template)
    · next span head arguments others => exact absurd rfl (hcall span head arguments others)
    · rfl

def hasTrackedHead (bindings : List Binding) (parts : List Tree) : Bool :=
  ((parts.head?.bind plainName?).bind (Binding.find? bindings)).isSome

theorem isSome_bind_map {name? : Option Text} {form : SiteForm} :
    (name?.bind fun n => (Binding.find? bindings n).map fun b => (⟨b, span, form⟩ : Site)).isSome =
      (name?.bind (Binding.find? bindings)).isSome := by
  cases name? with
  | none => rfl
  | some n => simp

theorem isSome_siteOf?_tagged (parts : List Tree) :
    (siteOf? bindings (.node (.expr .tagged) span parts)).isSome =
      (decide (parts.length = 3) && hasTrackedHead bindings parts) := by
  match parts with
  | [] | [_] | [_, _] | _ :: _ :: _ :: _ :: _ => simp [siteOf?]
  | [head, _, _] =>
    rw [siteOf?_tagged, isSome_bind_map]
    rfl

theorem isSome_siteOf?_call (parts : List Tree) :
    (siteOf? bindings (.node (.expr .call) span parts)).isSome =
      (decide (2 ≤ parts.length) && hasTrackedHead bindings parts) := by
  match parts with
  | [] | [_] => simp [siteOf?]
  | head :: _ :: _ =>
    rw [siteOf?_call, isSome_bind_map]
    simp [hasTrackedHead]

theorem isSome_siteOf?_congr {kind : Kind} {parts parts' : List Tree}
    (hlen : parts.length = parts'.length)
    (hhead : parts.head?.bind plainName? = parts'.head?.bind plainName?) :
    (siteOf? bindings (.node kind span parts)).isSome =
      (siteOf? bindings (.node kind span parts')).isSome := by
  have htracked : hasTrackedHead bindings parts = hasTrackedHead bindings parts' := by
    rw [hasTrackedHead, hhead]
    rfl
  by_cases htagged : kind = .expr .tagged
  · subst htagged
    rw [isSome_siteOf?_tagged, isSome_siteOf?_tagged, hlen, htracked]
  · by_cases hcall : kind = .expr .call
    · subst hcall
      rw [isSome_siteOf?_call, isSome_siteOf?_call, hlen, htracked]
    · rw [siteOf?_of_kind htagged hcall, siteOf?_of_kind htagged hcall]

end

/-! ## Sites with a template -/

theorem placeholders_of_template? {site : Site} {placeholders strings : List Tree} {text : Text}
    (hform : site.form = .tagged placeholders strings) (h : site.template? = .ok text) :
    placeholders = [] := by
  cases placeholders with
  | nil => rfl
  | cons p ps => simp [Site.template?, hform] at h

theorem arguments_of_template? {site : Site} {arguments : List Tree} {text : Text}
    (hform : site.form = .call arguments) (h : site.template? = .ok text) :
    ∃ raw span parts, arguments = [.node (.expr (.string text raw)) span parts] := by
  unfold Site.template? at h
  rw [hform] at h
  split at h
  · next heq => cases heq
  · next heq => cases heq
  · cases h
  · next value raw span parts heq =>
    cases heq
    cases h
    exact ⟨raw, span, parts, rfl⟩
  · cases h
  · cases h

end InlineTemplates
