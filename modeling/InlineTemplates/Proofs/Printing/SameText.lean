import InlineTemplates.Script.Printer.Doc

/-! # Documents with the same text

Where a document is cut into pieces and where comments could stand in it is no part of its text. -/

namespace InlineTemplates.Script

namespace Doc

/-- Wherever they stand, the two documents are the same text. -/
def SameText (d d' : Doc) : Prop :=
  ∀ (m : Margin) (rest : Doc), (d ++ rest).layout m = (d' ++ rest).layout m

namespace SameText

variable {d d' e e' : Doc}

theorem refl (d : Doc) : SameText d d := fun _ _ => rfl

theorem trans {d'' : Doc} (h : SameText d d') (h' : SameText d' d'') : SameText d d'' :=
  fun m rest => (h m rest).trans (h' m rest)

theorem cons (p : Piece) (h : SameText d d') : SameText (p :: d) (p :: d') := by
  intro m rest
  cases p with
  | text t => exact congrArg ((m.put t).1 ++ ·) (h (m.put t).2 rest)
  | newline =>
    simp only [List.cons_append, layout]
    rw [h, h]
  | indent => exact h _ rest
  | dedent => exact h _ rest
  | comments => exact h m rest

theorem append (h : SameText d d') (h' : SameText e e') : SameText (d ++ e) (d' ++ e') := by
  have hleft : SameText (d ++ e) (d ++ e') := by
    clear h
    induction d with
    | nil => exact h'
    | cons p d ih => exact ih.cons p
  intro m rest
  rw [hleft m rest, List.append_assoc, List.append_assoc, h m (e' ++ rest)]

theorem texts (t u : Text) : SameText [.text t, .text u] [.text (t ++ u)] := by
  rintro ⟨depth, atStart⟩ rest
  simp only [List.cons_append, List.nil_append, layout, Margin.put]
  cases t with
  | nil => simp
  | cons c t => cases atStart <;> cases u <;> simp

theorem intercalate {α : Type} {mark : Doc} {f f' : α → Doc} {xs : List α}
    (h : ∀ x, SameText (f x) (f' x)) :
    SameText (mark.intercalate (xs.map f)) (mark.intercalate (xs.map f')) := by
  induction xs with
  | nil => exact .refl _
  | cons x xs ih =>
    cases xs with
    | nil =>
      rw [List.map_singleton, List.map_singleton, List.intercalate_singleton,
        List.intercalate_singleton]
      exact h x
    | cons y ys =>
      rw [List.map_cons, List.map_cons] at ih
      rw [List.map_cons, List.map_cons, List.map_cons, List.map_cons, List.intercalate_cons_cons,
        List.intercalate_cons_cons]
      exact .append (.append (h x) (.refl mark)) ih

theorem comments (d : Doc) (side : CommentSide) (position : Nat) (apart : Bool) :
    SameText (d ++ [Piece.comments side position apart]) d := by
  have h : SameText (d ++ [Piece.comments side position apart]) (d ++ []) :=
    .append (.refl d) fun _ _ => rfl
  rwa [List.append_nil] at h

end SameText

theorem layout_eq_of_sameText {d d' : Doc} (h : SameText d d') (m : Margin) :
    d.layout m = d'.layout m := by
  simpa using h m []

theorem render_nil (d : Doc) : d.render [] = d.layout {} := by
  have hlayout : ∀ m : Margin, (d.withComments []).layout m = d.layout m := by
    induction d with
    | nil => exact fun _ => rfl
    | cons p d ih =>
      intro m
      cases p <;> simp [withComments, layout, ih, Comments.on, Comments.without]
  exact hlayout {}

/-- The document without places for comments and with texts in a row put together. -/
def merged : Doc → Doc
  | [] => []
  | .text t :: rest =>
    match merged rest with
    | .text u :: more => .text (t ++ u) :: more
    | more => .text t :: more
  | .comments _ _ _ :: rest => merged rest
  | p :: rest => p :: merged rest

theorem sameText_merged (d : Doc) : SameText d d.merged := by
  induction d with
  | nil => exact .refl _
  | cons p d ih =>
    cases p with
    | text t =>
      rw [merged]
      split
      · next u more hmore =>
        rw [hmore] at ih
        exact (ih.cons _).trans (SameText.append (.texts t u) (.refl more))
      · exact ih.cons _
    | comments side position apart => exact ih
    | _ => exact ih.cons _

/-! ## At the edges -/

/-- Something other than the end of a line or an indentation comes first. -/
def OpensWithText (d : Doc) : Prop :=
  ∃ (c : Char) (t : Text) (more : Doc), d.merged = Piece.text (c :: t) :: more

theorem OpensWithText.layout_eq {d : Doc} (h : d.OpensWithText) :
    d.layout {} = d.layout { atStart := false } := by
  obtain ⟨c, t, more, hmerged⟩ := h
  rw [layout_eq_of_sameText (sameText_merged d), layout_eq_of_sameText (sameText_merged d), hmerged]
  simp [Doc.layout, Margin.put]

theorem layout_append (d : Doc) (m : Margin) :
    ∃ m' : Margin, ∀ rest : Doc, (d ++ rest).layout m = d.layout m ++ rest.layout m' := by
  induction d generalizing m with
  | nil => exact ⟨m, fun rest => rfl⟩
  | cons p d ih =>
    cases p with
    | text u =>
      obtain ⟨m', hm⟩ := ih (m.put u).2
      exact ⟨m', fun rest => by simp only [List.cons_append, layout, hm, List.append_assoc]⟩
    | newline =>
      cases hstart : m.atStart with
      | true =>
        obtain ⟨m', hm⟩ := ih m
        exact ⟨m', fun rest => by simp [layout, hstart, hm]⟩
      | false =>
        obtain ⟨m', hm⟩ := ih { m with atStart := true }
        exact ⟨m', fun rest => by simp [layout, hstart, hm]⟩
    | indent =>
      obtain ⟨m', hm⟩ := ih { m with depth := m.depth + 1 }
      exact ⟨m', hm⟩
    | dedent =>
      obtain ⟨m', hm⟩ := ih { m with depth := m.depth - 1 }
      exact ⟨m', hm⟩
    | comments =>
      obtain ⟨m', hm⟩ := ih m
      exact ⟨m', hm⟩

theorem layout_text (m : Margin) {t : Text} (ht : t ≠ []) : ∃ n, ∀ rest : Doc,
    Doc.layout m (.text t :: rest) =
      List.replicate n ' ' ++ (t ++ rest.layout { m with atStart := false }) := by
  obtain ⟨depth, atStart⟩ := m
  cases t with
  | nil => exact absurd rfl ht
  | cons c t =>
    cases atStart with
    | true => exact ⟨4 * depth, fun rest => by simp [layout, Margin.put]⟩
    | false => exact ⟨0, fun rest => by simp [layout, Margin.put]⟩

theorem layout_append_text (d : Doc) {t : Text} (ht : t ≠ []) (m : Margin) :
    ∃ n, (d ++ [Piece.text t]).layout m = d.layout m ++ List.replicate n ' ' ++ t := by
  obtain ⟨m', hm⟩ := layout_append d m
  obtain ⟨n, hn⟩ := layout_text m' ht
  exact ⟨n, by rw [hm, hn, layout, List.append_nil, List.append_assoc]⟩

end Doc
end InlineTemplates.Script
