import InlineTemplates.Proofs.Lexing.Words
import InlineTemplates.Proofs.Printing.Edges
import InlineTemplates.Proofs.Printing.SameText

/-! # Documents that spell tokens

Set at any margin and with any comments in its places, a document gives the text of its tokens, with
blanks and comments between them. Whether the last token ends there depends on the first character of
what follows. -/

namespace InlineTemplates.Script

/-- The text ends, or its first character passes the test. -/
def Begins (p : Char → Bool) (x : Text) : Prop := x.head?.all p = true

def endsWord (ch : Char) : Bool := !Text.isNamePart ch && ch != '\\'

theorem begins_true (x : Text) : Begins (fun _ => true) x := by simp [Begins]

theorem Lexes.gap {gap x y : Text} {ts : List Token} (hgap : Gap gap) (hts : ts ≠ [])
    (h : Lexes x ts y) : Lexes (gap ++ x) ts y := by
  cases ts with
  | nil => exact absurd rfl hts
  | cons t ts =>
    obtain ⟨z, ⟨gap', w, hgap', hw, rfl⟩, hrest⟩ := h
    exact ⟨z, ⟨gap ++ gap', w, hgap.append hgap', hw, (List.append_assoc _ _ _).symm⟩, hrest⟩

/-- A comment that ends where it says: no mark in it ends it before. -/
def Comment.Closed (c : Comment) : Prop :=
  if c.block then ¬ ['*', '/'] <:+: c.content ++ ['*']
  else ∀ ch ∈ c.content, Text.isLineEnd ch = false

def Comments.Closed (cs : Comments) : Prop := ∀ c ∈ cs, c.comment.Closed

namespace Doc

variable {p q : Char → Bool} {d e rest : Doc} {ts us : List Token} {t : Token} {w : Text} {ch : Char}
  {cs : Comments}

theorem closed_unprinted (h : cs.Closed) (d : Doc) : Comments.Closed (unprinted cs d) :=
  fun c hc => h c (List.mem_of_mem_filter hc)

/-! ## Gaps -/

/-- The document gives blanks and comments only. -/
def IsGap (d : Doc) : Prop := ∀ cs : Comments, cs.Closed → ∀ m, ∃ m' gap, Gap gap ∧
  ∀ rest, layout m (d.withComments cs ++ rest) = gap ++ layout m' rest

theorem isGap_nil : IsGap [] := fun _ _ m => ⟨m, [], .nil, fun _ => rfl⟩

theorem IsGap.append (h : IsGap d) (h' : IsGap e) : IsGap (d ++ e) := by
  intro cs hcs m
  obtain ⟨m₁, gap, hgap, hd⟩ := h cs hcs m
  obtain ⟨m₂, gap', hgap', he⟩ := h' _ (closed_unprinted hcs d) m₁
  refine ⟨m₂, gap ++ gap', hgap.append hgap', fun rest => ?_⟩
  rw [withComments_append, List.append_assoc, hd, he, List.append_assoc]

theorem isSpace_of_mem_replicate {n : Nat} : ∀ c ∈ List.replicate n ' ', isSpace c = true := by
  intro c hc
  rw [List.eq_of_mem_replicate hc]
  decide

theorem gap_replicate (n : Nat) : Gap (List.replicate n ' ') := .blanks isSpace_of_mem_replicate

theorem layout_gap (hw : Gap w) (m : Margin) : ∃ m' gap, Gap gap ∧
    ∀ rest, layout m (.text w :: rest) = gap ++ layout m' rest := by
  by_cases hempty : w = []
  · subst hempty
    exact ⟨m, [], .nil, fun rest => rfl⟩
  · obtain ⟨n, hlayout⟩ := layout_text m hempty
    refine ⟨{ m with atStart := false }, List.replicate n ' ' ++ w, (gap_replicate n).append hw,
      fun rest => ?_⟩
    rw [List.append_assoc]
    exact hlayout rest

theorem isGap_text (hw : Gap w) : IsGap [.text w] := fun _ _ => layout_gap hw

theorem isGap_newline : IsGap [.newline] := by
  rintro _ _ ⟨depth, atStart⟩
  cases atStart with
  | true => exact ⟨_, [], .nil, fun rest => rfl⟩
  | false => exact ⟨_, ['\n'], .of_all (by decide), fun rest => rfl⟩

theorem isGap_indent : IsGap [.indent] := fun _ _ _ => ⟨_, [], .nil, fun _ => rfl⟩

theorem isGap_dedent : IsGap [.dedent] := fun _ _ _ => ⟨_, [], .nil, fun _ => rfl⟩

theorem layout_comment {c : Comment} (hc : c.Closed) (apart : Bool) (m : Margin) :
    ∃ m' gap, Gap gap ∧ ∀ rest, layout m (c.doc apart ++ rest) = gap ++ layout m' rest := by
  obtain ⟨block, content⟩ := c
  have hbody (m : Margin) : ∃ m' gap, Gap gap ∧
      ∀ rest, layout m ((Comment.mk block content).doc false ++ rest) = gap ++ layout m' rest := by
    cases block with
    | true =>
      have hgap : Gap ('/' :: '*' :: content ++ ['*', '/'] ++ [' ']) :=
        @Gap.block [] _ _ nofun hc (.of_all (by decide))
      have hdoc : (Comment.mk true content).doc false =
          [.text ('/' :: '*' :: content ++ ['*', '/'] ++ [' '])] := by simp [Comment.doc]
      rw [hdoc]
      exact layout_gap hgap m
    | false =>
      obtain ⟨n, hlayout⟩ := layout_text m (List.cons_ne_nil '/' ('/' :: content))
      have hgap : Gap (List.replicate n ' ' ++ ('/' :: '/' :: content) ++ ['\n']) :=
        .line isSpace_of_mem_replicate hc rfl (.of_all (by decide))
      refine ⟨{ m with atStart := true }, _, hgap, fun rest => ?_⟩
      have hdoc : (Comment.mk false content).doc false ++ rest =
          .text ('/' :: '/' :: content) :: .newline :: rest := rfl
      rw [hdoc, hlayout]
      simp [layout]
  cases apart with
  | false => exact hbody m
  | true =>
    obtain ⟨m₁, gap, hgap, hblank⟩ := layout_gap (w := [' ']) (.of_all (by decide)) m
    obtain ⟨m₂, gap', hgap', hrest⟩ := hbody m₁
    refine ⟨m₂, gap ++ gap', hgap.append hgap', fun rest => ?_⟩
    have hdoc : (Comment.mk block content).doc true ++ rest =
        .text [' '] :: ((Comment.mk block content).doc false ++ rest) := rfl
    rw [hdoc, hblank, hrest, List.append_assoc]

theorem isGap_comments (side : CommentSide) (position : Nat) (apart : Bool) :
    IsGap [.comments side position apart] := by
  intro cs hcs m
  have hon : ∀ c ∈ cs.on side position, c.Closed := by
    intro c hc
    obtain ⟨placed, hplaced, rfl⟩ := List.mem_map.mp hc
    exact hcs placed (List.mem_of_mem_filter hplaced)
  have hdoc : Doc.withComments cs [.comments side position apart] =
      (cs.on side position).flatMap (Comment.doc apart) := List.append_nil _
  rw [hdoc]
  generalize cs.on side position = comments at hon
  induction comments generalizing m with
  | nil => exact ⟨m, [], .nil, fun _ => rfl⟩
  | cons c comments ih =>
    obtain ⟨m₁, gap, hgap, hc⟩ := layout_comment (hon c List.mem_cons_self) apart m
    obtain ⟨m₂, gap', hgap', hrest⟩ := ih m₁ fun c hc => hon c (List.mem_cons_of_mem _ hc)
    refine ⟨m₂, gap ++ gap', hgap.append hgap', fun rest => ?_⟩
    rw [List.flatMap_cons, List.append_assoc, hc, hrest, List.append_assoc]

/-! ## First characters -/

/-- Wherever the document stands, its text begins so. -/
def Opens (p : Char → Bool) (d : Doc) : Prop :=
  ∀ cs : Comments, cs.Closed → ∀ m rest, Begins p (layout m (d.withComments cs ++ rest))

def PassesGaps (p : Char → Bool) : Prop := ∀ ch, isSpace ch = true ∨ ch = '/' → p ch = true

theorem begins_gap {gap x : Text} (hp : PassesGaps p) (hgap : Gap gap) (h : Begins p x) :
    Begins p (gap ++ x) := by
  cases gap with
  | nil => exact h
  | cons ch gap => exact hp ch (hgap.head rfl)

theorem isNamePart_of_isSpace (h : isSpace ch = true) : Text.isNamePart ch = false := by
  cases hp : Text.isNamePart ch with
  | false => rfl
  | true =>
    have hplain := isPlainStart_of_isNamePart hp
    rw [isPlainStart, h] at hplain
    cases hplain

theorem passesGaps_endsWord : PassesGaps endsWord := by
  rintro ch (h | rfl)
  · have hpart := isNamePart_of_isSpace h
    have hslash : ch ≠ '\\' := by
      rintro rfl
      revert h
      decide
    simp [endsWord, hpart, hslash]
  · decide

theorem opens_true (d : Doc) : Opens (fun _ => true) d := fun _ _ _ _ => begins_true _

theorem opens_text (hp : PassesGaps p) (hch : p ch = true) : Opens p [.text (ch :: w)] := by
  intro _ _ m rest
  obtain ⟨n, hlayout⟩ := layout_text m (List.cons_ne_nil ch w)
  exact (hlayout rest).symm ▸ begins_gap hp (gap_replicate n) hch

theorem Opens.append (h : Opens p d) (e : Doc) : Opens p (d ++ e) := by
  intro cs hcs m rest
  rw [withComments_append, List.append_assoc]
  exact h cs hcs m _

theorem IsGap.opens (hgap : IsGap d) (hp : PassesGaps p) (h : Opens p e) : Opens p (d ++ e) := by
  intro cs hcs m rest
  obtain ⟨m', gap, hg, hd⟩ := hgap cs hcs m
  rw [withComments_append, List.append_assoc, hd]
  exact begins_gap hp hg (h _ (closed_unprinted hcs d) m' rest)

/-! ## Tokens -/

/-- Wherever the document stands it spells the tokens, perhaps with a gap behind them, if what follows
begins so. -/
def Spells (p : Char → Bool) (d : Doc) (ts : List Token) : Prop :=
  ∀ cs : Comments, cs.Closed → ∀ m, ∃ m' gap, Gap gap ∧
    ∀ rest, Begins p (gap ++ layout m' rest) →
      Lexes (layout m (d.withComments cs ++ rest)) ts (gap ++ layout m' rest)

theorem spells_nil : Spells p [] [] := fun _ _ m => ⟨m, [], .nil, fun _ _ => rfl⟩

theorem Spells.append (h : Spells p d ts) (h' : Spells q e us) (hus : us ≠ []) (hp : PassesGaps p)
    (hopens : Opens p e) : Spells q (d ++ e) (ts ++ us) := by
  intro cs hcs m
  obtain ⟨m₁, gap, hgap, hd⟩ := h cs hcs m
  have hleft := closed_unprinted hcs d
  obtain ⟨m₂, gap', hgap', he⟩ := h' _ hleft m₁
  refine ⟨m₂, gap', hgap', fun rest hrest => ?_⟩
  rw [withComments_append, List.append_assoc]
  refine lexes_append.mpr ⟨_, hd _ ?_, (he rest hrest).gap hgap hus⟩
  exact begins_gap hp hgap (hopens _ hleft m₁ rest)

theorem IsGap.spells (h : IsGap d) (h' : Spells p e ts) (hts : ts ≠ []) : Spells p (d ++ e) ts := by
  intro cs hcs m
  obtain ⟨m₁, gap, hgap, hd⟩ := h cs hcs m
  obtain ⟨m₂, gap', hgap', he⟩ := h' _ (closed_unprinted hcs d) m₁
  refine ⟨m₂, gap', hgap', fun rest hrest => ?_⟩
  rw [withComments_append, List.append_assoc, hd]
  exact (he rest hrest).gap hgap hts

theorem Spells.behind (h : Spells p d ts) (h' : IsGap e) : Spells p (d ++ e) ts := by
  intro cs hcs m
  obtain ⟨m₁, gap, hgap, hd⟩ := h cs hcs m
  obtain ⟨m₂, gap', hgap', he⟩ := h' _ (closed_unprinted hcs d) m₁
  refine ⟨m₂, gap ++ gap', hgap.append hgap', fun rest hrest => ?_⟩
  have hall := hd (e.withComments (unprinted cs d) ++ rest)
  rw [he, ← List.append_assoc] at hall
  rw [withComments_append, List.append_assoc]
  exact hall hrest

theorem Spells.comments (h : Spells p d ts) (side : CommentSide) (position : Nat) (apart : Bool) :
    Spells p (d ++ [.comments side position apart]) ts := h.behind (isGap_comments _ _ _)

theorem spells_before (position : Nat) (h : Spells p d ts) (hts : ts ≠ []) :
    Spells p (Doc.before position ++ d) ts := (isGap_comments _ _ _).spells h hts

theorem spells_text (hw : ∀ y, Begins p y → Spelled y t w) : Spells p [.text w] [t] := by
  have hempty : w ≠ [] := by
    rintro rfl
    exact absurd (hw [] rfl).length_pos (Nat.lt_irrefl 0)
  intro _ _ m
  obtain ⟨n, hlayout⟩ := layout_text m hempty
  refine ⟨{ m with atStart := false }, [], .nil, fun rest hrest => ?_⟩
  exact ⟨_, ⟨_, w, gap_replicate n, hw _ hrest, hlayout rest⟩, rfl⟩

theorem spells_word {n : Text} (hn : IsWordText n) : Spells endsWord [.text n] [wordToken n] :=
  spells_text fun _ hy => .word hn hy

theorem spells_string {raw value : Text} (h : IsString raw value) :
    Spells p [.text raw] [.string value raw] := spells_text fun _ _ => .string h

theorem spells_mark {m : Mark} (h : Mark.ofChar? ch = some m) : Spells p [.text [ch]] [.mark m] :=
  spells_text fun _ _ => .mark h

theorem spells_mark_append {m : Mark} (h : Mark.ofChar? ch = some m) (h' : Spells p d ts)
    (hts : ts ≠ []) : Spells p ([.text [ch]] ++ d) (.mark m :: ts) :=
  (spells_mark (p := fun _ => true) h).append h' hts (fun _ _ => rfl) (opens_true d)

/-! ## On a page -/

theorem sameText_withComments (h : ∀ c ∈ cs, c.place ∉ d.places) : SameText (d.withComments cs) d := by
  induction d generalizing cs with
  | nil => exact .refl _
  | cons piece d ih =>
    cases piece with
    | comments side position apart =>
      rw [places_cons_comments] at h
      have hon : cs.on side position = [] :=
        Comments.on_eq_nil fun c hc hplace => h c hc (List.mem_cons.mpr (.inl hplace))
      rw [withComments, hon]
      refine (ih fun c hc => ?_).trans fun _ _ => rfl
      exact fun hmem => h c (List.mem_of_mem_filter hc) (List.mem_cons_of_mem _ hmem)
    | _ => exact (ih h).cons _

theorem Spells.lexes_layout (h : Spells p d ts) (hp : PassesGaps p) (margin : Margin) :
    ∃ gap, Gap gap ∧ Lexes (d.layout margin) ts gap := by
  obtain ⟨m', gap, hgap, hd⟩ := h [] nofun margin
  have hplain : SameText (d.withComments []) d := sameText_withComments nofun
  have hlexes := hd [] (begins_gap hp hgap rfl)
  rw [hplain, List.append_nil] at hlexes
  exact ⟨_, hgap.append .nil, hlexes⟩

theorem Spells.lexes_append_mark {m : Mark} (h : Spells p d ts) (hp : PassesGaps p)
    (hmark : Mark.ofChar? ch = some m) (hch : p ch = true) (margin : Margin) (y : Text) :
    Lexes ((d ++ [Piece.text [ch]]).layout margin ++ y) (ts ++ [.mark m]) y := by
  obtain ⟨m', gap, hgap, hd⟩ := h [] nofun margin
  have hplain : SameText (d.withComments []) d := sameText_withComments nofun
  obtain ⟨m₁, hbehind⟩ := layout_append d margin
  have hone : (layout m₁ [.text [ch]]) ++ y = layout m₁ [.text (ch :: y)] := by
    cases hstart : m₁.atStart <;> simp [layout, Margin.put, hstart]
  have htext : (d ++ [Piece.text [ch]]).layout margin ++ y =
      layout margin (d.withComments [] ++ [.text (ch :: y)]) := by
    rw [hplain, hbehind, hbehind, List.append_assoc, hone]
  obtain ⟨n, hn⟩ := layout_text m' (List.cons_ne_nil ch y)
  have hlast : layout m' [.text (ch :: y)] = List.replicate n ' ' ++ (ch :: y) := by
    simpa [layout] using hn []
  rw [htext]
  have hbegins : Begins p (gap ++ layout m' [.text (ch :: y)]) := by
    rw [hlast]
    exact begins_gap hp hgap (begins_gap hp (gap_replicate n) hch)
  refine lexes_append.mpr ⟨_, hd _ hbegins, y, ?_, rfl⟩
  exact ⟨gap ++ List.replicate n ' ', [ch], hgap.append (gap_replicate n), .mark hmark, by
    rw [hlast, List.append_assoc]
    rfl⟩

/-! ## Brackets -/

theorem spells_bracketed {g g' : Doc} {o c : Char} {m m' : Mark} (ho : Mark.ofChar? o = some m)
    (hc : Mark.ofChar? c = some m') (hends : endsWord c = true) (hg : IsGap g) (hg' : IsGap g')
    (h : Spells endsWord d ts) :
    Spells p ([.text [o]] ++ (g ++ d ++ g') ++ [.text [c]]) (.mark m :: (ts ++ [.mark m'])) := by
  have hopens : Opens endsWord (g' ++ [.text [c]]) :=
    hg'.opens passesGaps_endsWord (opens_text passesGaps_endsWord hends)
  have hclose : Spells p (g' ++ [.text [c]]) [.mark m'] :=
    hg'.spells (spells_mark hc) (List.cons_ne_nil _ _)
  have hinner : Spells p (g ++ (d ++ (g' ++ [.text [c]]))) (ts ++ [.mark m']) :=
    hg.spells (h.append hclose (List.cons_ne_nil _ _) passesGaps_endsWord hopens) (by simp)
  rw [List.append_assoc [Piece.text [o]], List.append_assoc (g ++ d), List.append_assoc g]
  exact spells_mark_append ho hinner (by simp)

end Doc

theorem plain_eq_layout (dense : Bool) (source : Text) (e : Tree) :
    e.plain dense source = (Style.print { dense := dense, source := source } e).code.layout {} := by
  rw [Tree.plain, Tree.render, Doc.render_nil, Tree.doc]
  split
  · exact Doc.layout_eq_of_sameText (.comments _ _ _ _) {}
  · rfl

end InlineTemplates.Script
