import InlineTemplates.Proofs.Printing.Spliced

/-! # Which comments a document prints

The first place for a comment that a document has takes it, so each comment of the table is printed
at most once, and the order of the places is the order of the comments. -/

namespace InlineTemplates.Script

/-- The token side that a comment belongs to. -/
def PlacedComment.place (c : PlacedComment) : CommentSide × Nat := (c.side, c.position)

theorem Comments.on_eq_nil {cs : Comments} {side : CommentSide} {position : Nat}
    (h : ∀ c ∈ cs, c.place ≠ (side, position)) : cs.on side position = [] := by
  rw [Comments.on, List.map_eq_nil_iff, List.filter_eq_nil_iff]
  intro c hc hplace
  exact h c hc (by simpa [PlacedComment.place] using hplace)

namespace Doc

variable {P : PlacedComment → Prop} {a b c d : Doc} {cs : Comments}

/-! ## Places -/

theorem places_append (a b : Doc) : (a ++ b).places = a.places ++ b.places :=
  List.filterMap_append

theorem places_cons_comments (side : CommentSide) (position : Nat) (apart : Bool) (d : Doc) :
    places (.comments side position apart :: d) = (side, position) :: d.places :=
  List.filterMap_cons_some rfl

theorem places_flatMap {α : Type} (f : α → Doc) (xs : List α) :
    places (xs.flatMap f) = xs.flatMap fun x => (f x).places := by
  induction xs with
  | nil => rfl
  | cons x xs ih => rw [List.flatMap_cons, places_append, ih, List.flatMap_cons]

/-! ## Printed comments -/

/-- The comments of a table that a document prints, in order. -/
def printed : Comments → Doc → Comments
  | _, [] => []
  | cs, .comments side position _ :: rest =>
    cs.filter (fun c => c.place = (side, position)) ++
      printed (cs.filter fun c => c.place ≠ (side, position)) rest
  | cs, _ :: rest => printed cs rest

/-- The comments of a table that a document leaves. -/
def unprinted (cs : Comments) (d : Doc) : Comments := cs.filter fun c => c.place ∉ d.places

/-- The second document is the first one with these comments put in: they stand in their order, each
at a place that it belongs to. -/
inductive Carries : Doc → Comments → Doc → Prop where
  | nil : Carries [] [] []
  | keep {piece d cs d'} (hpiece : ∀ side position apart, piece ≠ .comments side position apart)
      (rest : Carries d cs d') : Carries (piece :: d) cs (piece :: d')
  | put {side position apart d here cs d'} (hhere : ∀ c ∈ here, c.place = (side, position))
      (rest : Carries d cs d') :
      Carries (.comments side position apart :: d) (here ++ cs)
        (here.flatMap (fun c => c.comment.doc apart) ++ d')

theorem without_eq_filter (cs : Comments) (side : CommentSide) (position : Nat) :
    cs.without side position = cs.filter fun c => c.place ≠ (side, position) := by
  rw [Comments.without]
  congr 1
  funext c
  simp [PlacedComment.place, Bool.beq_eq_decide_eq]

theorem carries_withComments (d : Doc) :
    ∀ cs : Comments, Carries d (printed cs d) (d.withComments cs) := by
  induction d with
  | nil => exact fun _ => .nil
  | cons piece d ih =>
    intro cs
    cases piece with
    | comments side position apart =>
      have hon : (cs.on side position).flatMap (Comment.doc apart) =
          (cs.filter fun c => c.place = (side, position)).flatMap
            fun c => c.comment.doc apart := by
        rw [Comments.on, List.flatMap_map]
        congr 2
        funext c
        simp [PlacedComment.place, Bool.beq_eq_decide_eq]
      rw [printed, withComments, hon, without_eq_filter]
      exact .put (fun c hc => by simpa using (List.mem_filter.mp hc).2) (ih _)
    | _ => exact .keep (fun _ _ _ h => nomatch h) (ih cs)

theorem count_printed (d : Doc) (c : PlacedComment) :
    ∀ cs : Comments, (printed cs d).count c = if c.place ∈ d.places then cs.count c else 0 := by
  induction d with
  | nil => exact fun _ => rfl
  | cons piece d ih =>
    intro cs
    cases piece with
    | comments side position apart =>
      rw [printed, List.count_append, ih, places_cons_comments]
      by_cases hplace : c.place = (side, position)
      · have hothers : (cs.filter fun c => c.place ≠ (side, position)).count c = 0 := by
          rw [List.count_eq_zero]
          simp [hplace]
        rw [List.count_filter (by simpa using hplace), hothers, ite_self, hplace,
          if_pos List.mem_cons_self]
        rfl
      · have hhere : (cs.filter fun c => c.place = (side, position)).count c = 0 := by
          rw [List.count_eq_zero]
          simp [hplace]
        rw [hhere, List.count_filter (by simpa using hplace), Nat.zero_add]
        simp [hplace]
    | _ => exact ih cs

theorem unprinted_cons_comments (cs : Comments) (side : CommentSide) (position : Nat)
    (apart : Bool) (d : Doc) : unprinted cs (.comments side position apart :: d) =
      unprinted (cs.filter fun c => c.place ≠ (side, position)) d := by
  unfold unprinted
  rw [places_cons_comments, List.filter_filter]
  refine List.filter_congr fun c _ => ?_
  simp [Bool.and_comm]

theorem unprinted_nil (cs : Comments) : unprinted cs [] = cs :=
  List.filter_eq_self.mpr fun c _ => by simp [places]

theorem withComments_append (a b : Doc) :
    ∀ cs : Comments,
      (a ++ b).withComments cs = a.withComments cs ++ b.withComments (unprinted cs a) := by
  induction a with
  | nil =>
    intro cs
    rw [unprinted_nil]
    rfl
  | cons piece a ih =>
    intro cs
    cases piece with
    | comments side position apart =>
      rw [List.cons_append, withComments, withComments, ih, List.append_assoc,
        unprinted_cons_comments, without_eq_filter]
    | _ => exact congrArg (_ :: ·) (ih cs)

theorem printed_append (a b : Doc) :
    ∀ cs : Comments, printed cs (a ++ b) = printed cs a ++ printed (unprinted cs a) b := by
  induction a with
  | nil =>
    intro cs
    rw [unprinted_nil]
    rfl
  | cons piece a ih =>
    intro cs
    cases piece with
    | comments side position apart =>
      rw [List.cons_append, printed, printed, ih, List.append_assoc, unprinted_cons_comments]
    | _ => exact ih cs

theorem filter_printed (p : PlacedComment → Bool) (d : Doc) :
    ∀ cs : Comments, (printed cs d).filter p = printed (cs.filter p) d := by
  induction d with
  | nil => exact fun _ => rfl
  | cons piece d ih =>
    intro cs
    cases piece with
    | comments side position apart =>
      rw [printed, printed, List.filter_append, ih, List.filter_comm, List.filter_comm p]
    | _ => exact ih cs

/-! ## Documents that print the same -/

/-- Of a table of such comments two documents print the same and leave the same. -/
def SamePrint (P : PlacedComment → Prop) (a b : Doc) : Prop :=
  ∀ cs : Comments, (∀ c ∈ cs, P c) → printed cs a = printed cs b ∧ unprinted cs a = unprinted cs b

theorem SamePrint.filter_printed {cs : Comments} {keep : PlacedComment → Bool}
    (h : SamePrint P a b) (hkeep : ∀ c ∈ cs, keep c = true → P c) :
    (printed cs a).filter keep = (printed cs b).filter keep := by
  have hkept : ∀ c ∈ cs.filter keep, P c := fun c hc =>
    hkeep c (List.mem_filter.mp hc).1 (List.mem_filter.mp hc).2
  rw [Doc.filter_printed, Doc.filter_printed, (h _ hkept).1]

theorem SamePrint.refl (d : Doc) : SamePrint P d d := fun _ _ => ⟨rfl, rfl⟩

theorem SamePrint.symm (h : SamePrint P a b) : SamePrint P b a :=
  fun cs hcs => ⟨(h cs hcs).1.symm, (h cs hcs).2.symm⟩

theorem SamePrint.trans (h : SamePrint P a b) (h' : SamePrint P b c) : SamePrint P a c :=
  fun cs hcs => ⟨(h cs hcs).1.trans (h' cs hcs).1, (h cs hcs).2.trans (h' cs hcs).2⟩

theorem SamePrint.mono {Q : PlacedComment → Prop} (h : SamePrint Q a b) (hQ : ∀ c, P c → Q c) :
    SamePrint P a b := fun cs hcs => h cs fun c hc => hQ c (hcs c hc)

theorem unprinted_append (cs : Comments) (a b : Doc) :
    unprinted cs (a ++ b) = unprinted (unprinted cs a) b := by
  unfold unprinted
  rw [places_append, List.filter_filter]
  refine List.filter_congr fun c _ => ?_
  simp [Bool.and_comm]

theorem SamePrint.append (h : SamePrint P a b) (h' : SamePrint P c d) :
    SamePrint P (a ++ c) (b ++ d) := by
  intro cs hcs
  obtain ⟨hprinted, hleft⟩ := h cs hcs
  have hrest : ∀ c ∈ unprinted cs b, P c := fun c hc => hcs c (List.mem_of_mem_filter hc)
  obtain ⟨hprinted', hleft'⟩ := h' (unprinted cs b) hrest
  rw [printed_append, printed_append, unprinted_append, unprinted_append, hprinted, hleft,
    hprinted', hleft']
  exact ⟨rfl, rfl⟩

theorem SamePrint.mem_places_iff (h : SamePrint P a b) {c : PlacedComment} (hc : P c) :
    c.place ∈ a.places ↔ c.place ∈ b.places := by
  have hleft := (h [c] (by simpa using hc)).2
  unfold unprinted at hleft
  by_cases ha : c.place ∈ a.places <;> by_cases hb : c.place ∈ b.places <;> simp_all

theorem mem_printed_iff {c : PlacedComment} (hc : c ∈ cs) :
    c ∈ printed cs d ↔ c.place ∈ d.places := by
  have hcount := count_printed d c cs
  rw [← List.count_pos_iff, hcount]
  split
  · next hplace => simpa [hplace] using hc
  · next hplace => simp [hplace]

theorem samePrint_nil (h : ∀ c, P c → c.place ∉ d.places) : SamePrint P d [] := by
  intro cs hcs
  have hleft : unprinted cs d = unprinted cs [] := by
    unfold unprinted
    refine List.filter_congr fun c hc => ?_
    have hnone : c.place ∉ places [] := List.not_mem_nil
    rw [decide_eq_true (h c (hcs c hc)), decide_eq_true hnone]
  refine ⟨?_, hleft⟩
  change printed cs d = []
  rw [List.eq_nil_iff_forall_not_mem]
  intro c hc
  have hcount := count_printed d c cs
  by_cases hmem : c ∈ cs
  · rw [if_neg (h c (hcs c hmem)), List.count_eq_zero] at hcount
    exact hcount hc
  · rw [List.count_eq_zero.mpr hmem, ite_self, List.count_eq_zero] at hcount
    exact hcount hc

theorem printed_eq_printed_places (d : Doc) :
    ∀ cs : Comments, printed cs d =
      printed cs (d.places.map fun place => .comments place.1 place.2 false) := by
  induction d with
  | nil => exact fun _ => rfl
  | cons piece d ih =>
    intro cs
    cases piece with
    | comments side position apart =>
      rw [places_cons_comments, List.map_cons, printed, printed, ih]
    | _ => exact ih cs

theorem samePrint_of_places (h : a.places = b.places) : SamePrint P a b := by
  intro cs _
  rw [printed_eq_printed_places, h, ← printed_eq_printed_places, unprinted, h]
  exact ⟨rfl, rfl⟩

theorem SamePrint.behind {side : CommentSide} {position : Nat} {apart : Bool}
    (h : SamePrint (fun c => P c ∧ c.place ≠ (side, position)) a b) :
    SamePrint P (.comments side position apart :: a) (.comments side position apart :: b) := by
  intro cs hcs
  have hothers : ∀ c ∈ cs.filter (fun c => c.place ≠ (side, position)),
      P c ∧ c.place ≠ (side, position) := by
    intro c hc
    obtain ⟨hmem, hplace⟩ := List.mem_filter.mp hc
    exact ⟨hcs c hmem, by simpa using hplace⟩
  obtain ⟨hprinted, hleft⟩ := h _ hothers
  rw [printed, printed, hprinted, unprinted_cons_comments, unprinted_cons_comments, hleft]
  exact ⟨rfl, rfl⟩

/-- Documents print the same if they are the same but for stretches that print the same. -/
theorem Spliced.samePrint {swaps : Doc → Doc → Prop} (h : Spliced swaps a b)
    (hswaps : ∀ a b, swaps a b → SamePrint P a b) : SamePrint P a b := by
  induction h with
  | nil => exact .refl _
  | keep piece _ ih =>
    change SamePrint P ([piece] ++ _) ([piece] ++ _)
    exact (SamePrint.refl _).append ih
  | swap hs _ ih => exact (hswaps _ _ hs).append ih

end Doc
end InlineTemplates.Script
