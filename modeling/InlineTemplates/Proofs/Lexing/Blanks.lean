import InlineTemplates.Script.Lexer.Blank

/-! # What stands between two tokens

Blanks, line ends and comments are passed whatever follows them. -/

namespace InlineTemplates.Script

/-- Whether the character is no part of a token. -/
def isSpace (c : Char) : Bool := Text.isBlank c || Text.isLineEnd c

/-- Blanks, line ends and comments in front of a token. A comment of one line is closed by the end
of its line. -/
inductive Gap : Text → Prop
  | blanks {run : Text} (hrun : ∀ c ∈ run, isSpace c = true) : Gap run
  | line {run content gap : Text} (hrun : ∀ c ∈ run, isSpace c = true)
      (hcontent : ∀ c ∈ content, Text.isLineEnd c = false)
      (hclosed : gap.head?.any Text.isLineEnd = true) (hgap : Gap gap) :
      Gap (run ++ ('/' :: '/' :: content) ++ gap)
  | block {run content gap : Text} (hrun : ∀ c ∈ run, isSpace c = true)
      (hcontent : ¬ ['*', '/'] <:+: content ++ ['*']) (hgap : Gap gap) :
      Gap (run ++ ('/' :: '*' :: content ++ ['*', '/']) ++ gap)

/-- Blanks, line ends and comments at the end of a source, which may close a comment of one line. -/
def LastGap (t : Text) : Prop :=
  Gap t ∨ ∃ gap content, Gap gap ∧ (∀ c ∈ content, Text.isLineEnd c = false) ∧
    t = gap ++ '/' :: '/' :: content

theorem Gap.nil : Gap [] := .blanks fun _ h => nomatch h

theorem Gap.of_all {run : Text} (h : run.all isSpace = true) : Gap run :=
  .blanks (List.all_eq_true.mp h)

theorem Gap.head {gap : Text} {ch : Char} {rest : Text} (h : Gap gap) (hhead : gap = ch :: rest) :
    isSpace ch = true ∨ ch = '/' := by
  have hrun {run more : Text} (hrun : ∀ c ∈ run, isSpace c = true)
      (heq : run ++ '/' :: more = ch :: rest) : isSpace ch = true ∨ ch = '/' := by
    cases run with
    | nil => exact .inr (List.cons.inj heq).1.symm
    | cons d run =>
      obtain ⟨rfl, -⟩ := List.cons.inj heq
      exact .inl (hrun _ List.mem_cons_self)
  cases h with
  | blanks hblanks =>
    subst hhead
    exact .inl (hblanks ch List.mem_cons_self)
  | line hblanks => exact hrun hblanks (by simpa using hhead)
  | block hblanks => exact hrun hblanks (by simpa using hhead)

theorem Gap.last {t : Text} (h : Gap t) : LastGap t := .inl h

theorem LastGap.head {t : Text} {ch : Char} {rest : Text} (h : LastGap t) (hhead : t = ch :: rest) :
    isSpace ch = true ∨ ch = '/' := by
  rcases h with hgap | ⟨gap, content, hgap, -, h⟩
  · exact hgap.head hhead
  · rw [h] at hhead
    cases gap with
    | nil => exact .inr (List.cons.inj hhead).1.symm
    | cons d gap =>
      obtain ⟨rfl, -⟩ := List.cons.inj hhead
      exact hgap.head rfl

theorem Gap.append {gap gap' : Text} (h : Gap gap) (h' : Gap gap') : Gap (gap ++ gap') := by
  induction h with
  | @blanks run hrun =>
    have hmore {run' : Text} (hrun' : ∀ c ∈ run', isSpace c = true) :
        ∀ c ∈ run ++ run', isSpace c = true := by
      intro c hc
      rcases List.mem_append.mp hc with h | h
      · exact hrun c h
      · exact hrun' c h
    cases h' with
    | blanks hrun' => exact .blanks (hmore hrun')
    | line hrun' hcontent hclosed hgap =>
      simpa only [List.append_assoc] using Gap.line (hmore hrun') hcontent hclosed hgap
    | block hrun' hcontent hgap =>
      simpa only [List.append_assoc] using Gap.block (hmore hrun') hcontent hgap
  | @line run content gap hrun hcontent hclosed hgap ih =>
    rw [List.append_assoc]
    refine .line hrun hcontent ?_ ih
    cases gap with
    | nil => cases hclosed
    | cons ch gap => exact hclosed
  | block hrun hcontent hgap ih =>
    rw [List.append_assoc]
    exact .block hrun hcontent ih

theorem LastGap.line {t : Text} (h : LastGap t) : Gap (t ++ ['\n']) := by
  have hend : Gap ['\n'] := .of_all (by decide)
  obtain hgap | ⟨gap, content, hgap, hcontent, rfl⟩ := h
  · exact hgap.append hend
  · have hline : Gap ([] ++ ('/' :: '/' :: content) ++ ['\n']) := .line nofun hcontent rfl hend
    simpa using hgap.append hline

def Unspaced (t : Text) : Prop := t.head?.any isSpace = false

namespace Lexer

/-- What stays when blanks and comments are passed. -/
structure Kept (l l' : Lexer) : Prop where
  enclosures : l'.enclosures = l.enclosures
  regexFrom : l'.regexFrom = l.regexFrom
  record : l'.record = l.record
  origin : l'.origin = l.origin
  stop : l'.stop = l.stop
  length : l'.position + l'.rest.length = l.position + l.rest.length

namespace Kept

variable {l l' l'' : Lexer}

theorem trans (h : Kept l l') (h' : Kept l' l'') : Kept l l'' where
  enclosures := h'.enclosures.trans h.enclosures
  regexFrom := h'.regexFrom.trans h.regexFrom
  record := h'.record.trans h.record
  origin := h'.origin.trans h.origin
  stop := h'.stop.trans h.stop
  length := h'.length.trans h.length

theorem skip (l : Lexer) (n : Nat) : Kept l (l.skip n) :=
  ⟨rfl, rfl, rfl, rfl, rfl, position_add_length_skip l n⟩

theorem place (l : Lexer) (forNext : Bool) (comment : Comment) :
    Kept l (l.place forNext comment) := by
  unfold Lexer.place
  split <;> exact ⟨rfl, rfl, rfl, rfl, rfl, rfl⟩

theorem broken (l : Lexer) (b : Bool) : Kept l (if b then { l with lineBreak := true } else l) := by
  cases b <;> exact ⟨rfl, rfl, rfl, rfl, rfl, rfl⟩

theorem skipBlanks (l : Lexer) : Kept l l.skipBlanks :=
  (broken l _).trans (skip _ _)

end Kept

variable {c : Context} {l : Lexer} {t y : Text}

theorem skip_skip (l : Lexer) (m n : Nat) : (l.skip m).skip n = l.skip (m + n) := by
  simp only [skip, List.drop_drop, List.length_drop, Lexer.mk.injEq, true_and, and_true]
  omega

theorem rest_skip_of_append {n : Nat} (h : l.rest = t ++ y) (hn : t.length = n) :
    (l.skip n).rest = y := by
  rw [rest_skip, h, ← hn, List.drop_left]

/-! ## Blanks -/

theorem rest_skipBlanks (l : Lexer) : l.skipBlanks.rest = l.rest.dropWhile isSpace := by
  have hrest : ∀ b : Bool, (if b then { l with lineBreak := true } else l : Lexer).rest = l.rest := by
    intro b
    cases b <;> rfl
  have hdrop : l.skipBlanks.rest = (if (l.rest.takeWhile isSpace).any Text.isLineEnd then
      { l with lineBreak := true } else l : Lexer).rest.drop (l.rest.takeWhile isSpace).length := rfl
  rw [hdrop, hrest]
  have hparts := List.takeWhile_append_dropWhile (p := isSpace) (l := l.rest)
  exact (congrArg (List.drop _) hparts.symm).trans List.drop_left

theorem skipBlanks_of_unspaced (h : Unspaced l.rest) : l.skipBlanks = l := by
  have hrun : l.rest.takeWhile (fun c => Text.isBlank c || Text.isLineEnd c) = [] := by
    unfold Unspaced at h
    cases hrest : l.rest with
    | nil => rfl
    | cons ch rest =>
      rw [hrest] at h
      exact List.takeWhile_cons_of_neg (by simpa [isSpace] using h)
  unfold skipBlanks
  rw [hrun]
  simp [skip]

theorem unspaced_dropWhile (t : Text) : Unspaced (t.dropWhile isSpace) := by
  induction t with
  | nil => rfl
  | cons ch t ih =>
    rw [List.dropWhile_cons]
    split
    · exact ih
    · next h => simpa [Unspaced] using h

theorem skipBlanks_skipBlanks (l : Lexer) : l.skipBlanks.skipBlanks = l.skipBlanks :=
  skipBlanks_of_unspaced (by rw [rest_skipBlanks]; exact unspaced_dropWhile _)

theorem rest_skipBlanks_of_run {run : Text} (hrun : ∀ ch ∈ run, isSpace ch = true)
    (h : l.rest = run ++ y) (hy : Unspaced y) : l.skipBlanks.rest = y := by
  rw [rest_skipBlanks, h, List.dropWhile_append_of_pos hrun]
  cases y with
  | nil => rfl
  | cons ch y => exact List.dropWhile_cons_of_neg (by simpa [Unspaced] using hy)

theorem place_skipBlanks (l : Lexer) (forNext : Bool) (comment : Comment) :
    (l.place forNext comment).skipBlanks = l.skipBlanks.place forNext comment := by
  have h : ∀ (b : Bool) (n : Nat), (if b then { l.place forNext comment with lineBreak := true }
      else l.place forNext comment : Lexer).skip n =
        ((if b then { l with lineBreak := true } else l : Lexer).skip n).place forNext comment := by
    intro b n
    cases b <;> cases forNext <;> rfl
  cases forNext <;> exact h _ _

/-! ## Comments -/

theorem skipSpaceUpTo_skipBlanks (c : Context) (n : Nat) (l : Lexer) :
    l.skipBlanks.skipSpaceUpTo c (n + 1) = l.skipSpaceUpTo c (n + 1) := by
  unfold skipSpaceUpTo
  rw [skipBlanks_skipBlanks]

theorem kept_skipLine (l : Lexer) (mark : Nat) : Kept l (l.skipLine mark) :=
  ((Kept.skip _ _).trans (Kept.skip _ _)).trans (Kept.place _ _ _)

theorem rest_place (l : Lexer) (forNext : Bool) (comment : Comment) :
    (l.place forNext comment).rest = l.rest := by
  cases forNext <;> rfl

theorem takeWhile_line {content : Text} (hcontent : ∀ ch ∈ content, Text.isLineEnd ch = false)
    (hy : y.head?.all Text.isLineEnd = true) :
    (content ++ y).takeWhile (fun ch => !Text.isLineEnd ch) = content := by
  rw [List.takeWhile_append_of_pos (by simpa using hcontent)]
  cases y with
  | nil => simp
  | cons ch y =>
    have hend : Text.isLineEnd ch = true := by simpa using hy
    rw [List.takeWhile_cons_of_neg (by simp [hend]), List.append_nil]

theorem rest_skipLine {content : Text} (h : l.rest = '/' :: '/' :: content ++ y)
    (hcontent : ∀ ch ∈ content, Text.isLineEnd ch = false) (hy : y.head?.all Text.isLineEnd = true) :
    (l.skipLine 2).rest = y := by
  have htake := takeWhile_line hcontent hy
  unfold skipLine
  rw [rest_place, rest_skip, rest_skip, h]
  simp [htake]

theorem blockContent_append {content : Text} (h : ¬ ['*', '/'] <:+: content ++ ['*']) :
    blockContent (content ++ '*' :: '/' :: y) = (content, true) := by
  induction content with
  | nil => rfl
  | cons ch content ih =>
    have hinner : ¬ ['*', '/'] <:+: content ++ ['*'] := fun hin =>
      h (hin.trans (List.suffix_cons ch _).isInfix)
    rw [List.cons_append, blockContent.eq_def]
    split
    · next rest heq =>
      refine absurd ?_ h
      obtain ⟨rfl, hrest⟩ := List.cons.inj heq
      cases content with
      | nil => cases hrest
      | cons d content =>
        obtain ⟨rfl, -⟩ := List.cons.inj hrest
        exact ⟨[], content ++ ['*'], rfl⟩
    · next d rest _ heq =>
      obtain ⟨rfl, rfl⟩ := List.cons.inj heq
      rw [ih hinner]
    · next heq => cases heq

theorem skipBlock_eq {content : Text} (h : l.rest = '/' :: '*' :: content ++ ['*', '/'] ++ y)
    (hcontent : ¬ ['*', '/'] <:+: content ++ ['*']) :
    ∃ l', l.skipBlock c = l'.skipBlanks ∧ l'.rest = y ∧ Kept l l' := by
  have hinner : (l.skip 2).rest = content ++ '*' :: '/' :: y := by
    rw [rest_skip, h]
    simp
  have hblock := blockContent_append (y := y) hcontent
  unfold skipBlock
  dsimp only
  rw [hinner, hblock]
  dsimp only
  rw [if_pos rfl, ← place_skipBlanks]
  refine ⟨_, rfl, ?_, ?_⟩
  · rw [rest_place]
    have hrest : ((l.skip 2).skip (content.length + 2)).rest = y := by
      rw [rest_skip, hinner, ← List.drop_drop, List.drop_left]
      rfl
    split <;> exact hrest
  · refine Kept.trans ?_ (Kept.place _ _ _)
    exact ((Kept.skip l _).trans (Kept.skip _ _)).trans (Kept.broken _ _)

/-- Blanks and comments in front of something else are passed, and of the steps that were left as
many remain as could be needed for as many characters. -/
theorem skipSpaceUpTo_gap {gap : Text} (hgap : Gap gap) (hy : Unspaced y) (n : Nat)
    (h : l.rest = gap ++ y) (hn : gap.length ≤ n) :
    ∃ l' m, l.skipSpaceUpTo c (n + 1) = l'.skipSpaceUpTo c (m + 1) ∧ l'.rest = y ∧ Kept l l' ∧
      n ≤ m + gap.length := by
  induction hgap generalizing l n with
  | blanks hrun =>
    refine ⟨l.skipBlanks, n, (skipSpaceUpTo_skipBlanks c n l).symm,
      rest_skipBlanks_of_run hrun h hy, .skipBlanks l, by omega⟩
  | @line run content gap hrun hcontent hclosed hgap ih =>
    simp only [List.length_append, List.length_cons] at hn
    obtain ⟨k, rfl⟩ : ∃ k, n = k + 1 := ⟨n - 1, by omega⟩
    have hslashes : l.skipBlanks.rest = '/' :: '/' :: content ++ (gap ++ y) :=
      rest_skipBlanks_of_run hrun (by simpa using h) rfl
    have hline : (l.skipBlanks.skipLine 2).rest = gap ++ y := by
      refine rest_skipLine hslashes hcontent ?_
      cases gap with
      | nil => cases hclosed
      | cons ch gap => simpa using hclosed
    obtain ⟨l', m, hskip, hrest, hkept, hm⟩ := ih k hline (by omega)
    refine ⟨l', m, ?_, hrest, ((Kept.skipBlanks l).trans (kept_skipLine _ 2)).trans hkept, ?_⟩
    · rw [← hskip]
      conv => lhs; unfold skipSpaceUpTo
      simp only [hslashes, List.cons_append]
    · simp only [List.length_append, List.length_cons]
      omega
  | @block run content gap hrun hcontent hgap ih =>
    simp only [List.length_append, List.length_cons, List.length_nil] at hn
    obtain ⟨k, rfl⟩ : ∃ k, n = k + 1 := ⟨n - 1, by omega⟩
    have hopened : l.skipBlanks.rest = '/' :: '*' :: content ++ ['*', '/'] ++ (gap ++ y) :=
      rest_skipBlanks_of_run hrun (by simpa using h) rfl
    obtain ⟨after, hblock, hafter, hkeptBlock⟩ := skipBlock_eq (c := c) hopened hcontent
    obtain ⟨l', m, hskip, hrest, hkept, hm⟩ := ih k hafter (by omega)
    refine ⟨l', m, ?_, hrest, ((Kept.skipBlanks l).trans hkeptBlock).trans hkept, ?_⟩
    · rw [← hskip, ← skipSpaceUpTo_skipBlanks c k after, ← hblock]
      conv => lhs; unfold skipSpaceUpTo
      simp only [hopened, List.cons_append]
    · simp only [List.length_append, List.length_cons, List.length_nil]
      omega

/-- Something comes next that is neither a blank nor a comment. -/
def OpensToken (t : Text) : Prop :=
  Unspaced t ∧ ¬ ['/', '/'] <+: t ∧ ¬ ['/', '*'] <+: t

theorem skipSpaceUpTo_of_opensToken (h : OpensToken l.rest) (n : Nat) :
    l.skipSpaceUpTo c (n + 1) = l := by
  unfold skipSpaceUpTo
  dsimp only
  rw [skipBlanks_of_unspaced h.1]
  split
  · next rest heq => exact absurd ⟨rest, heq.symm⟩ h.2.1
  · next rest heq => exact absurd ⟨rest, heq.symm⟩ h.2.2
  · rfl

theorem skipSpace_gap {gap : Text} (hgap : Gap gap) (hy : OpensToken y) (h : l.rest = gap ++ y) :
    (l.skipSpace c).rest = y ∧ Kept l (l.skipSpace c) := by
  have hn : gap.length ≤ l.rest.length := by rw [h, List.length_append]; omega
  obtain ⟨l', m, hskip, hrest, hkept, -⟩ := skipSpaceUpTo_gap (c := c) hgap hy.1 _ h hn
  unfold skipSpace
  rw [hskip, skipSpaceUpTo_of_opensToken (hrest ▸ hy)]
  exact ⟨hrest, hkept⟩

theorem opensToken_nil : OpensToken [] := by
  refine ⟨rfl, ?_, ?_⟩ <;> simp

theorem skipSpace_lastGap (h : LastGap l.rest) :
    (l.skipSpace c).rest = [] ∧ Kept l (l.skipSpace c) := by
  rcases h with hgap | ⟨gap, content, hgap, hcontent, h⟩
  · exact skipSpace_gap hgap opensToken_nil (List.append_nil _).symm
  · have hn : gap.length + 2 ≤ l.rest.length := by
      rw [h, List.length_append, List.length_cons, List.length_cons]
      omega
    obtain ⟨l', m, hskip, hrest, hkept, hm⟩ :=
      skipSpaceUpTo_gap (c := c) hgap (y := '/' :: '/' :: content) rfl l.rest.length h (by omega)
    obtain ⟨k, rfl⟩ : ∃ k, m = k + 1 := ⟨m - 1, by omega⟩
    have hline : (l'.skipLine 2).rest = [] := rest_skipLine (by simpa using hrest) hcontent rfl
    have hstep : l'.skipSpaceUpTo c (k + 2) = (l'.skipLine 2).skipSpaceUpTo c (k + 1) := by
      conv => lhs; unfold skipSpaceUpTo
      dsimp only
      rw [skipBlanks_of_unspaced (by rw [hrest]; rfl), hrest]
      rfl
    unfold skipSpace
    rw [hskip, hstep, skipSpaceUpTo_of_opensToken (hline ▸ opensToken_nil)]
    exact ⟨hline, hkept.trans (kept_skipLine _ 2)⟩

end Lexer
end InlineTemplates.Script
