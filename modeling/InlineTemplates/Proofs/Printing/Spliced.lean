import Mathlib.Data.List.Forall2
import InlineTemplates.Proofs.SiteShape
import InlineTemplates.Script.Printer.Rules

/-! # Documents with swapped stretches

Printing a node puts the code of its parts in a row. So where a part is swapped for another one that
looks the same to the printer, the document changes in the place of that part and nowhere else. Here
stands what that means; the rules of the printer follow one after the other. -/

namespace InlineTemplates.Script

/-! ## Documents -/

/-- Two documents are the same but for stretches that the relation swaps. -/
inductive Doc.Spliced (swaps : Doc → Doc → Prop) : Doc → Doc → Prop where
  | nil : Spliced swaps [] []
  | keep (piece : Piece) {d d' : Doc} (rest : Spliced swaps d d') :
      Spliced swaps (piece :: d) (piece :: d')
  | swap {a b d d' : Doc} (swapped : swaps a b) (rest : Spliced swaps d d') :
      Spliced swaps (a ++ d) (b ++ d')

namespace Doc.Spliced

variable {swaps : Doc → Doc → Prop} {a b c d : Doc}

theorem refl : ∀ d : Doc, Spliced swaps d d
  | [] => .nil
  | p :: d => .keep p (refl d)

theorem append (h : Spliced swaps a b) (h' : Spliced swaps c d) :
    Spliced swaps (a ++ c) (b ++ d) := by
  induction h with
  | nil => exact h'
  | keep p _ ih => exact .keep p ih
  | swap hs _ ih =>
    rw [List.append_assoc, List.append_assoc]
    exact .swap hs ih

theorem of_swaps (h : swaps a b) : Spliced swaps a b := by
  simpa using Spliced.swap h .nil

theorem of_eq (h : a = b) : Spliced swaps a b := h ▸ refl a

theorem ite {p : Prop} [Decidable p] (h : Spliced swaps a b) (h' : Spliced swaps c d) :
    Spliced swaps (if p then a else c) (if p then b else d) := by
  split
  · exact h
  · exact h'

theorem flatten {ds ds' : List Doc} (h : List.Forall₂ (Spliced swaps) ds ds') :
    Spliced swaps ds.flatten ds'.flatten := by
  induction h with
  | nil => exact .nil
  | cons h _ ih => exact h.append ih

theorem intersperse {ds ds' : List Doc} (mark : Doc) (h : List.Forall₂ (Spliced swaps) ds ds') :
    List.Forall₂ (Spliced swaps) (ds.intersperse mark) (ds'.intersperse mark) := by
  induction h with
  | nil => exact .nil
  | cons h hs ih =>
    cases hs with
    | nil => exact .cons h .nil
    | cons h' hs' => exact .cons h (.cons (refl mark) ih)

theorem intercalate {ds ds' : List Doc} (mark : Doc) (h : List.Forall₂ (Spliced swaps) ds ds') :
    Spliced swaps (mark.intercalate ds) (mark.intercalate ds') :=
  flatten (intersperse mark h)

theorem flatMap {α : Type} {f g : α → Doc} {xs ys : List α}
    (h : List.Forall₂ (fun x y => Spliced swaps (f x) (g y)) xs ys) :
    Spliced swaps (xs.flatMap f) (ys.flatMap g) := by
  induction h with
  | nil => exact .nil
  | cons h _ ih =>
    rw [List.flatMap_cons, List.flatMap_cons]
    exact h.append ih

theorem isEmpty_eq (hne : ∀ a b, swaps a b → a ≠ [] ∧ b ≠ []) (h : Spliced swaps a b) :
    a.isEmpty = b.isEmpty := by
  cases h with
  | nil => rfl
  | keep => rfl
  | swap hs _ =>
    obtain ⟨ha, hb⟩ := hne _ _ hs
    cases hea : List.isEmpty (_ ++ _) <;> simp_all

end Doc.Spliced

/-- The swaps take in all texts of the same places for comments, so also parentheses. -/
def Doc.SwapsTexts (swaps : Doc → Doc → Prop) : Prop :=
  ∀ a b : Doc, a ≠ [] → b ≠ [] → a.places = b.places → swaps a b

/-! ## Printed parts -/

namespace Printed

theorem kind_tree (p : Printed) : p.tree.kind = p.kind := rfl

/-- Two printed trees that a construct around them is printed alike with: their code is the same but
for swapped stretches, and they look the same otherwise. -/
inductive Alike (s : Style) (swaps : Doc → Doc → Prop) : Printed → Printed → Prop where
  | mk {t u : Tree} {d d' : Doc} {ps qs : List Printed} (span : t.span = u.span)
      (root : SameRoot t u) (code : Doc.Spliced swaps d d')
      (parts : List.Forall₂ (Alike s swaps) ps qs) :
      Alike s swaps (.mk t d ps) (.mk u d' qs)

namespace Alike

variable {s : Style} {swaps : Doc → Doc → Prop} {p q : Printed}

theorem span_eq (h : Alike s swaps p q) : p.span = q.span := by
  cases h with
  | mk span => exact span

theorem root (h : Alike s swaps p q) : SameRoot p.tree q.tree := by
  cases h with
  | mk _ root => exact root

theorem code (h : Alike s swaps p q) : Doc.Spliced swaps p.code q.code := by
  cases h with
  | mk _ _ code => exact code

theorem after (h : Alike s swaps p q) : p.after = q.after := by
  rw [Printed.after, h.span_eq]
  rfl

theorem whole (h : Alike s swaps p q) : Doc.Spliced swaps p.whole q.whole := by
  rw [Printed.whole, Printed.whole, h.after]
  exact h.code.append (.refl _)

theorem parts (h : Alike s swaps p q) : List.Forall₂ (Alike s swaps) p.parts q.parts := by
  cases h with
  | mk _ _ _ parts => exact parts

@[elab_as_elim]
theorem by_kind {motive : Kind → Kind → Prop} (h : Alike s swaps p q)
    (hleft : ∀ kind, motive (.expr .tagged) kind = motive (.expr .call) kind)
    (hright : ∀ kind, motive kind (.expr .tagged) = motive kind (.expr .call))
    (hsame : ∀ kind, motive kind kind) : motive p.kind q.kind := by
  have hroot : p.kind = q.kind ∨ p.kind.isApplied = true ∧ q.kind.isApplied = true := h.root
  rcases hroot with hkind | ⟨hp, hq⟩
  · rw [hkind]
    exact hsame _
  · rcases Kind.of_isApplied hp with hp | hp <;> rcases Kind.of_isApplied hq with hq | hq <;>
      rw [hp, hq] <;> simp only [hleft, hright, hsame]

theorem isAbsent_eq (h : Alike s swaps p q) : p.isAbsent = q.isAbsent := by
  have hkind : ∀ p : Printed, p.isAbsent = (p.kind == .absent) := by
    rintro ⟨⟨kind, _, _⟩, _, _⟩
    cases kind <;> rfl
  rw [hkind, hkind]
  exact h.by_kind (fun _ => rfl) (fun _ => rfl) fun _ => rfl

theorem ledAfter {mark mark' : Doc} {f g : Printed → Doc} (h : Alike s swaps p q)
    (hmark : Doc.Spliced swaps mark mark') (hform : Doc.Spliced swaps (f p) (g q)) :
    Doc.Spliced swaps (p.led mark f) (q.led mark' g) := by
  rw [Printed.led, Printed.led, h.isAbsent_eq]
  exact .ite (.refl _) (.append hmark hform)

theorem led {f g : Printed → Doc} (h : Alike s swaps p q) (mark : Doc)
    (hform : Doc.Spliced swaps (f p) (g q)) :
    Doc.Spliced swaps (p.led mark f) (q.led mark g) :=
  h.ledAfter (.refl _) hform

end Alike
end Printed

/-! ## Lists -/

/-- Entries of a list with the same span and the same code but for swapped stretches. -/
def Entry.Alike (swaps : Doc → Doc → Prop) (e e' : Entry) : Prop :=
  e.span = e'.span ∧ Doc.Spliced swaps e.code e'.code

namespace Style

open Doc (Spliced)
open Printed (Alike)

variable {s : Style} {swaps : Doc → Doc → Prop} {ps qs : List Printed}

theorem entry_alike (l : ListStyle) {e e' : Entry} (h : e.Alike swaps e') :
    Spliced swaps (entry l e) (entry l e') := by
  rw [entry, entry, h.1]
  exact h.2.append (.refl _)

theorem list_alike (l : ListStyle) (parent : Span) {es es' : List Entry}
    (h : List.Forall₂ (Entry.Alike swaps) es es') :
    Spliced swaps (s.list l parent es) (s.list l parent es') := by
  cases h with
  | nil => exact .refl _
  | @cons e e' es es' he hes =>
    have hcodes :
        List.Forall₂ (Spliced swaps) ((e :: es).map (entry l)) ((e' :: es').map (entry l)) := by
      rw [List.forall₂_map_left_iff, List.forall₂_map_right_iff]
      exact (List.Forall₂.cons he hes).imp fun _ _ => entry_alike l
    have hbody := (Spliced.intercalate (s.separator l) hcodes).append
      (Spliced.refl (s.finalComma l parent))
    simp only [list]
    refine .append (.append (.refl _) ?_) (.refl _)
    split
    · rw [indented, indented]
      exact .ite hbody (.append (.append (.refl _) hbody) (.refl _))
    · exact hbody

theorem entries_alike {f : Printed → Doc} (h : List.Forall₂ (Alike s swaps) ps qs)
    (hform : ∀ p q, Alike s swaps p q → Spliced swaps (f p) (f q)) :
    List.Forall₂ (Entry.Alike swaps) (ps.map (·.entry f)) (qs.map (·.entry f)) := by
  rw [List.forall₂_map_left_iff, List.forall₂_map_right_iff]
  exact h.imp fun p q hpq => ⟨hpq.span_eq, hform p q hpq⟩

theorem list_of_parts (l : ListStyle) (parent : Span) {f : Printed → Doc}
    (h : List.Forall₂ (Alike s swaps) ps qs)
    (hform : ∀ p q, Alike s swaps p q → Spliced swaps (f p) (f q)) :
    Spliced swaps (s.list l parent (ps.map (·.entry f))) (s.list l parent (qs.map (·.entry f))) :=
  list_alike l parent (entries_alike h hform)

theorem flatMap_of_parts {f : Printed → Doc} (h : List.Forall₂ (Alike s swaps) ps qs)
    (hform : ∀ p q, Alike s swaps p q → Spliced swaps (f p) (f q)) :
    Spliced swaps (ps.flatMap f) (qs.flatMap f) :=
  .flatMap (h.imp fun p q => hform p q)

theorem isEmpty_eq (h : List.Forall₂ (Alike s swaps) ps qs) : ps.isEmpty = qs.isEmpty := by
  cases h <;> rfl

theorem map_eq {α : Type} {f : Printed → α} (h : List.Forall₂ (Alike s swaps) ps qs)
    (hf : ∀ p q, Alike s swaps p q → f p = f q) : ps.map f = qs.map f := by
  induction h with
  | nil => rfl
  | cons hpq _ ih => rw [List.map_cons, List.map_cons, hf _ _ hpq, ih]

theorem filter_alike {keep : Printed → Bool} (h : List.Forall₂ (Alike s swaps) ps qs)
    (hkeep : ∀ p q, Alike s swaps p q → keep p = keep q) :
    List.Forall₂ (Alike s swaps) (ps.filter keep) (qs.filter keep) := by
  induction h with
  | nil => exact .nil
  | @cons p q ps qs hpq _ ih =>
    have hk := hkeep p q hpq
    cases hp : keep p with
    | true =>
      rw [List.filter_cons_of_pos hp, List.filter_cons_of_pos (hk ▸ hp)]
      exact .cons hpq ih
    | false =>
      rw [List.filter_cons_of_neg (by simp [hp]), List.filter_cons_of_neg (by simp [← hk, hp])]
      exact ih

theorem codes_alike (mark : Doc) (h : List.Forall₂ (Alike s swaps) ps qs) :
    Spliced swaps (mark.intercalate (ps.map (·.code))) (mark.intercalate (qs.map (·.code))) := by
  refine .intercalate _ ?_
  rw [List.forall₂_map_left_iff, List.forall₂_map_right_iff]
  exact h.imp fun _ _ h => h.code

theorem gapIf_congr (hs : s.dense = false) (needed needed' : Bool) :
    s.gapIf needed = s.gapIf needed' := by
  cases needed <;> cases needed' <;> simp [gapIf, gap, hs]

theorem gapIf_spliced (hs : s.dense = false) (needed needed' : Bool) :
    Spliced swaps (s.gapIf needed) (s.gapIf needed') := .of_eq (gapIf_congr hs _ _)

end Style

end InlineTemplates.Script
