import InlineTemplates.Proofs.Lexing.Progress

/-! # What a token takes

In code without tags a string that is read took its two quotes and as many characters as it says or
more, and a name has only characters of names, if no error was noted. -/

namespace InlineTemplates.Script

variable {c : Context} {l l' : Lexer}

/-! ## Strings in a text -/

section Strings

variable {x value after : Text}

/-- The text has a string that says the value, or more characters between its quotes, and the other
text is behind it. -/
def HoldsString (x value after : Text) : Prop :=
  ∃ quote more, (quote = '\'' ∨ quote = '"') ∧ quote :: more <:+ x ∧
    Read.EndsString quote value more after

def Unquoted (t : Text) : Prop := ∀ ch ∈ t, ch ≠ '\'' ∧ ch ≠ '"'

instance (t : Text) : Decidable (Unquoted t) :=
  List.decidableBAll (fun ch => ch ≠ '\'' ∧ ch ≠ '"') t

theorem Unquoted.notMem {t : Text} {quote : Char} (h : Unquoted t)
    (hquote : quote = '\'' ∨ quote = '"') : quote ∉ t := by
  intro hmem
  rcases hquote with rfl | rfl
  · exact (h _ hmem).1 rfl
  · exact (h _ hmem).2 rfl

theorem Unquoted.append {t u : Text} (h : Unquoted t) (h' : Unquoted u) : Unquoted (t ++ u) :=
  List.forall_mem_append.mpr ⟨h, h'⟩

theorem IsWordText.unquoted {n : Text} (h : IsWordText n) : Unquoted n := by
  intro ch hch
  have hpart : Text.isNamePart ch = true := List.all_eq_true.mp h.2 ch hch
  constructor <;> rintro rfl <;> exact absurd hpart (by decide)

theorem HoldsString.of_suffix {y : Text} (h : HoldsString x value after) (hx : x <:+ y) :
    HoldsString y value after := by
  obtain ⟨quote, more, hquote, hmore, hends⟩ := h
  exact ⟨quote, more, hquote, hmore.trans hx, hends⟩

theorem HoldsString.length_le (h : HoldsString x value after) :
    value.length + after.length + 2 ≤ x.length := by
  obtain ⟨quote, more, -, hmore, body, rfl, hlength, -⟩ := h
  have := hmore.length_le
  simp only [List.length_cons, List.length_append] at this
  omega

theorem exists_of_suffix_append {front tail u : Text} (h : u <:+ front ++ tail)
    (hlong : tail.length ≤ u.length) : ∃ v, v <:+ front ∧ u = v ++ tail := by
  obtain ⟨t, ht⟩ := h
  obtain ⟨v, hv, hu⟩ | ⟨v, rfl, hu⟩ := List.append_eq_append_iff.mp ht
  · exact ⟨v, ⟨t, hv.symm⟩, hu⟩
  · have hlength := congrArg List.length hu
    rw [List.length_append] at hlength
    obtain rfl : v = [] := List.length_eq_zero_iff.mp (by omega)
    exact ⟨[], List.nil_suffix, hu.symm⟩

theorem HoldsString.isVerbatim {front : Text}
    (h : HoldsString (front ++ '\'' :: (value ++ ['\''])) value after) (hfront : Unquoted front)
    (hcode : ¬ ['\\', 'u'] <:+: value) : Read.IsVerbatim '\'' value := by
  obtain ⟨quote, more, hquote, hmore, body, rfl, hlength, hverbatim⟩ := h
  obtain ⟨v, hv, heq⟩ := exists_of_suffix_append hmore (by simp; omega)
  obtain rfl : v = [] := by
    cases v with
    | nil => rfl
    | cons ch v =>
      obtain rfl := (List.cons.inj heq).1
      exact absurd (hv.subset List.mem_cons_self) (hfront.notMem hquote)
  obtain ⟨rfl, heq⟩ := List.cons.inj heq
  have hsame : body.length = value.length := by
    have := congrArg List.length heq
    simp only [List.length_append, List.length_cons, List.length_nil] at this
    omega
  obtain ⟨rfl, -⟩ := List.append_inj heq hsame
  exact hverbatim rfl hcode

theorem HoldsString.length_lt {first : Char} {middle tail : Text}
    (h : HoldsString (first :: (value ++ (middle ++ tail))) value after) (hmiddle : Unquoted middle) :
    after.length < tail.length := by
  obtain ⟨quote, more, hquote, hmore, body, rfl, hlength, -⟩ := h
  refine Nat.lt_of_not_le fun hlong => ?_
  have hwhole : first :: (value ++ (middle ++ tail)) = first :: value ++ middle ++ tail := by simp
  have hmore' : quote :: body ++ quote :: after <:+ first :: value ++ middle ++ tail :=
    hwhole ▸ hmore
  have hafter : after <:+ first :: value ++ middle ++ tail :=
    ((List.suffix_cons _ _).trans (List.suffix_append _ _)).trans hmore'
  obtain ⟨v, -, rfl⟩ := exists_of_suffix_append hafter hlong
  have hinside : quote :: body ++ quote :: v <:+ first :: value ++ middle := by
    rw [← List.cons_append, ← List.append_assoc] at hmore'
    exact List.suffix_append_self_iff.mp hmore'
  -- As the value fits between the quotes, the second of them is in the middle.
  have hlength' := hinside.length_le
  simp only [List.length_append, List.length_cons] at hlength'
  have hsecond : quote :: v <:+ middle :=
    List.suffix_of_suffix_length_le ((List.suffix_append _ _).trans hinside)
      (List.suffix_append _ _) (by simp only [List.length_cons]; omega)
  exact hmiddle.notMem hquote (hsecond.subset List.mem_cons_self)

end Strings

namespace Read

/-! ## Templates -/

theorem goes_templateRest (before : Lexer) (n : Nat) (cooked : Except SyntaxError Text) :
    Goes l l IsOther (templateRest before n cooked) := by
  induction n generalizing l cooked with
  | zero => exact .fail _ _
  | succ n ih =>
    unfold templateRest
    refine (Goes.takeWhile _).bind fun run l₁ => .after (fun _ => runOn_lexer) ?_
    have hend : Goes l₁ l₁ IsOther (do
        return Token.template (cooked.map (· ++ run)) (← since before)) :=
      (Goes.since _).bind fun _ _ => .pure rfl
    split
    · exact hend
    · exact hend
    · exact (Goes.skip 1).bind fun _ _ => ih _
    · exact (Goes.skip _).bind fun _ _ => ih _
    · next hrest =>
      refine (goes_escape true hrest).attempt.on.bind fun result l₂ => ?_
      cases result with
      | ok chars => exact ih _
      | error e => exact ih _
    · exact .fail _ _

theorem goes_templatePart : Goes l l IsOther templatePart := by
  have hrest (l : Lexer) : Goes l l IsOther (templateRest l (l.rest.length + 1) (.ok [])) :=
    goes_templateRest _ _ _
  have hmark (n : Nat) (m : Mark) : Goes l l IsOther (do skip n; return Token.mark m) :=
    (Goes.skip n).bind fun _ _ => .pure rfl
  unfold templatePart
  refine .after (fun _ => runOn_lexer) ?_
  dsimp only
  split
  · exact .ite (fun _ => hmark 1 _) fun _ => hrest l
  · exact .ite (fun _ => hmark 2 _) fun _ => hrest l
  · exact hrest l

/-! ## Words -/

theorem goes_wordRest (n : Nat) (word : Text) (escaped : Bool)
    (hword : l.record.errors = [] → word.all Text.isNamePart = true) :
    Goes l l (fun w l' => l'.record.errors = [] → w.1.all Text.isNamePart = true)
      (wordRest n word escaped) := by
  induction n generalizing l word escaped with
  | zero => exact .pure hword
  | succ n ih =>
    unfold wordRest
    have hrun : (l.rest.takeWhile Text.isNamePart).all Text.isNamePart = true := List.all_takeWhile
    refine .after (fun _ => runOn_takeWhile _) ?_
    generalize l.rest.takeWhile Text.isNamePart = run at hrun ⊢
    have htaken (h : l.record.errors = []) : (word ++ run).all Text.isNamePart = true := by
      rw [List.all_append, hword h, hrun]
      rfl
    refine Goes.behind (.after (fun _ => runOn_next?) (.ite (fun _ => ?_) fun _ => .pure htaken))
      (.skip l _)
    have htaken' : (l.skip run.length).record.errors = [] →
        (word ++ run).all Text.isNamePart = true := htaken
    generalize l.skip run.length = l₁ at htaken'
    refine .after (fun _ => rfl) (.after (fun _ => rfl) (.ite (fun _ => ?_) fun hahead => ?_))
    · exact .stops (.failAt _ _)
    · obtain ⟨first, more, hrest⟩ : ∃ first more, l₁.rest = first :: 'u' :: more := by
        have hu : l₁.rest[1]? = some 'u' := by simpa using hahead
        cases hrest : l₁.rest with
        | nil =>
          rw [hrest] at hu
          cases hu
        | cons first tail =>
          cases tail with
          | nil =>
            rw [hrest] at hu
            cases hu
          | cons second more =>
            rw [hrest] at hu
            obtain rfl := Option.some.inj hu
            exact ⟨first, more, rfl⟩
      have hskip : (l₁.skip 1).rest = 'u' :: more := by
        rw [Lexer.rest_skip, hrest]
        rfl
      refine .after (fun _ => runOn_skip 1) (Goes.behind ?_ (.skip l₁ 1))
      refine (goes_unicodeEscape hskip).andThen fun chars l₂ hon hchars => ?_
      refine .ite (fun _ => (Goes.note _ _).andThen fun _ l₃ _ herrors => ?_) fun hfine => ?_
      · exact ih _ _ fun h => absurd h herrors
      · refine ih _ _ fun h => ?_
        rw [List.all_append, htaken' (hon.errors_nil h), Bool.true_and]
        rcases hchars.2 with ⟨ch, rfl⟩ | hhead
        · simpa using hfine
        · rw [hhead] at hfine
          exact absurd (by decide) hfine

/-- What a token is, if no error was noted: a string ends with its quote, behind as many characters as
it says or more, and a name has only characters of names. -/
def Fits (before : Text) (t : Token) (after : Lexer) : Prop :=
  after.record.errors = [] →
    (∀ value raw, t = .string value raw → HoldsString before value after.rest) ∧
    ∀ n plain, t = .name n plain → n.all Text.isNamePart = true

theorem Fits.mono {before later : Text} {t : Token} (h : Fits later t l) (hsuffix : later <:+ before) :
    Fits before t l := by
  intro herrors
  exact ⟨fun value raw ht => ((h herrors).1 value raw ht).of_suffix hsuffix, (h herrors).2⟩

theorem fits_keyword {before : Text} {k : Keyword} : Fits before (.keyword k) l :=
  fun _ => ⟨fun _ _ h => (by cases h), fun _ _ h => (by cases h)⟩

theorem fits_name {before n : Text} {plain : Bool}
    (h : l.record.errors = [] → n.all Text.isNamePart = true) :
    Fits before (.name n plain) l := by
  refine fun herrors => ⟨fun _ _ h => (by cases h), fun _ _ hname => ?_⟩
  cases hname
  exact h herrors

theorem goes_word {before : Text} : Goes l l (Fits before) word := by
  unfold word
  refine .after (fun _ => runOn_lexer) ?_
  refine (goes_wordRest _ [] false fun _ => rfl).andThen fun w l₁ _ hw => ?_
  obtain ⟨w, escaped⟩ := w
  dsimp only
  refine .ite (fun _ => .pure (fits_name hw)) fun _ => Goes.readThen fun c _ => ?_
  refine .ite (fun _ => .stops (.fail _ _)) fun _ => ?_
  cases Keyword.ofText? w with
  | some k => exact .pure fits_keyword
  | none => exact .pure (fits_name hw)

/-! ## Marks -/

theorem goes_take (n : Nat) (m : Mark) : Goes l l IsOther (take n m) :=
  (Goes.skip n).bind fun _ _ => .pure rfl

theorem goes_slash : Goes l l IsOther slash :=
  (Goes.ahead? 1).bind fun _ _ => .ite (fun _ => goes_take _ _) fun _ => goes_take _ _

theorem goes_single (op : BinaryOp) : Goes l l IsOther (single op) :=
  (Goes.ahead? 1).bind fun _ _ => .ite (fun _ => goes_take _ _) fun _ => goes_take _ _

theorem goes_doubled (ch : Char) (one two : BinaryOp) : Goes l l IsOther (doubled ch one two) := by
  refine Goes.lexer.bind fun _ _ => .ite (fun _ => ?_) fun _ => ?_
  · exact .ite (fun _ => goes_take _ _) fun _ => goes_take _ _
  · exact .ite (fun _ => goes_take _ _) fun _ => goes_take _ _

theorem goes_angle (ch : Char) : Goes l l IsOther (angle ch) := by
  unfold angle
  refine Goes.readThen fun c _ => ?_
  refine .ite (fun _ => goes_take _ _) fun _ => Goes.lexer.bind fun _ _ => ?_
  refine .ite (fun _ => .ite (fun _ => ?_) fun _ => ?_) fun _ => ?_
  · exact .ite (fun _ => goes_take _ _) fun _ => goes_take _ _
  · exact .ite (fun _ => goes_take _ _) fun _ => goes_take _ _
  · exact .ite (fun _ => goes_take _ _) fun _ => goes_take _ _

/-! ## Tokens -/

theorem fits_of_isOther {before : Text} {t : Token} (h : IsOther t l) : Fits before t l := by
  refine fun _ => ⟨fun _ _ ht => ?_, fun _ _ ht => ?_⟩
  · subst ht
    cases h
  · subst ht
    cases h

def mayStart (ch : Char) : Bool := Text.isNameStart ch || ['\\', '\'', '"'].contains ch

theorem goes_tokenFrom {ch : Char} {more : Text} (h : l.rest = ch :: more) :
    Goes l l (fun t l' => Fits l.rest t l' ∧ (t.isOther = false → mayStart ch = true))
      (tokenFrom ch) := by
  have hother {step : Read Token} (hstep : Goes l l IsOther step) :
      Goes l l (fun t l' => Fits l.rest t l' ∧ (t.isOther = false → mayStart ch = true)) step :=
    hstep.mono fun t _ _ ht => ⟨fits_of_isOther ht, fun hword => by rw [ht] at hword; cases hword⟩
  have hstring (hquote : ch = '\'' ∨ ch = '"') : Goes l l (fun t l' =>
      Fits l.rest t l' ∧ (t.isOther = false → mayStart ch = true)) (string ch) := by
    refine (goes_string hquote h).mono fun t l' _ ht => ?_
    obtain ⟨value, raw, rfl, hends⟩ := ht
    refine ⟨fun herrors => ⟨fun value' raw' heq => ?_, fun _ _ heq => (by cases heq)⟩, fun _ => ?_⟩
    · obtain ⟨rfl, -⟩ := Token.string.inj heq
      exact ⟨ch, more, hquote, h ▸ List.suffix_refl _, hends herrors⟩
    · rcases hquote with rfl | rfl <;> rfl
  have hword (hstart : (Text.isNameStart ch || ch == '\\') = true) : Goes l l (fun t l' =>
      Fits l.rest t l' ∧ (t.isOther = false → mayStart ch = true)) word := by
    refine goes_word.mono fun _ _ _ ht => ⟨ht, fun _ => ?_⟩
    rcases Bool.or_eq_true_iff.mp hstart with hname | hescape
    · exact Bool.or_eq_true_iff.mpr (.inl hname)
    · rw [beq_iff_eq.mp hescape]
      rfl
  unfold tokenFrom
  refine .after (fun _ => runOn_lexer) ?_
  dsimp only
  split
  · exact hother (goes_take _ _)
  · split
    · exact hother (.ite (fun _ => goes_number _) fun _ =>
        .ite (fun _ => goes_take _ _) fun _ => goes_take _ _)
    · exact hother (.ite (fun _ => .ite (fun _ => goes_take _ _) fun _ => goes_take _ _) fun _ =>
        goes_take _ _)
    · refine hother ?_
      split
      · exact goes_radixNumber 16
      · exact goes_radixNumber 16
      · exact goes_radixNumber 8
      · exact goes_radixNumber 8
      · exact goes_radixNumber 2
      · exact goes_radixNumber 2
      · exact goes_number false
    · exact hstring (.inr rfl)
    · exact hstring (.inl rfl)
    · exact hother goes_slash
    · exact hother (goes_single _)
    · exact hother (goes_doubled _ _ _)
    · exact hother (goes_doubled _ _ _)
    · exact hother (goes_doubled _ _ _)
    · exact hother (goes_single _)
    · exact hother (.ite (fun _ => goes_take _ _) fun _ => goes_single _)
    · exact hother (.ite (fun _ => goes_take _ _) fun _ => goes_single _)
    · exact hother (goes_angle _)
    · exact hother (goes_angle _)
    · exact hother (.ite (fun _ => .ite (fun _ => goes_take _ _) fun _ => goes_take _ _) fun _ =>
        goes_take _ _)
    · exact hother (.ite (fun _ => .ite (fun _ => goes_take _ _) fun _ => goes_take _ _) fun _ =>
        .ite (fun _ => goes_take _ _) fun _ => goes_take _ _)
    · refine .ite (fun _ => hother (goes_number _)) fun _ => .ite hword fun _ => ?_
      exact Goes.position.bind fun _ _ => (Goes.skip 1).bind fun _ _ => .failAt _ _

/-! ## Comments of old forms and marks of conflicts -/

theorem goes_lineComment (mark : Nat) : On l (lineComment mark) :=
  Goes.readThen fun _ _ => .modify ((Lexer.Onward.skipLine _ _).trans (.skipSpace _ _))

theorem goes_noteLegacyComment (start stop : Nat) : On l (noteLegacyComment start stop) :=
  Goes.readThen fun _ _ => .ite (fun _ => .modify (.addError _ _)) fun _ => .pure trivial

theorem goes_legacyOpening : On l legacyOpening :=
  Goes.position.bind fun _ _ => (goes_lineComment 4).bind fun _ _ => Goes.position.bind fun _ _ =>
    goes_noteLegacyComment _ _

theorem goes_legacyClosing : On l legacyClosing :=
  Goes.position.bind fun _ _ => (goes_noteLegacyComment _ _).bind fun _ _ => goes_lineComment 3

theorem goes_conflictSpan : On l conflictSpan := Goes.position.bind fun _ _ => .pure trivial

theorem goes_conflictLine (mark : Nat) : On l (conflictLine mark) :=
  goes_conflictSpan.bind fun _ _ => (Goes.noteAt _ _).on.bind fun _ _ => goes_lineComment mark

theorem goes_conflictMark? :
    Goes l l (fun passed l' => passed = false → l' = l) conflictMark? := by
  unfold conflictMark?
  refine .after (fun _ => runOn_lexer) (.ite (fun _ => .pure fun _ => rfl) fun _ => ?_)
  refine .readThen fun c _ => ?_
  split
  · exact (goes_conflictLine _).bind fun _ _ => .pure fun h => (by cases h)
  · exact .pure fun _ => rfl

theorem goes_atConflictDivider : Goes l l (fun _ l' => l' = l) atConflictDivider :=
  .after (fun _ => runOn_lexer) (.after (fun _ => rfl) (.pure rfl))

theorem goes_token {n : Nat} :
    Goes l l (fun t? l' => ∀ t ∈ t?, Fits l.rest t l') (token n) := by
  induction n generalizing l with
  | zero => exact .pure fun _ h => (by cases h)
  | succ n ih =>
    have hmore {l₁ : Lexer} (hon : l.Onward l₁) :
        Goes l₁ l₁ (fun t? l' => ∀ t ∈ t?, Fits l.rest t l') (token n) :=
      ih.mono fun t? l' _ ht t hmem => (ht t hmem).mono hon.rest
    have hfrom {ch : Char} {more : Text} (h : l.rest = ch :: more) :
        Goes l l (fun t? l' => ∀ t ∈ t?, Fits l.rest t l') (do return some (← tokenFrom ch)) := by
      refine (goes_tokenFrom h).andThen fun t l' _ ht => .pure fun t' hmem => ?_
      obtain rfl := Option.some.inj hmem
      exact ht.1
    unfold token
    refine .readThen fun c _ => .after (fun _ => runOn_lexer) ?_
    refine goes_conflictMark?.andThen fun passed l₁ hon hpassed => ?_
    cases passed with
    | true => exact hmore hon
    | false =>
      obtain rfl := hpassed rfl
      refine .ite (fun h => by cases h) fun _ => ?_
      split
      · exact .pure fun _ h => (by cases h)
      · exact (Goes.skip 1).bind fun _ _ => .pure fun _ h => (by cases h)
      · next hrest =>
        refine .ite (fun _ => hfrom hrest) fun _ => ?_
        exact goes_legacyOpening.andThen fun _ l₂ hon _ => hmore hon
      · next hrest =>
        refine .ite (fun _ => ?_) fun _ => hfrom hrest
        exact goes_legacyClosing.andThen fun _ l₂ hon _ => hmore hon
      · next hrest =>
        refine goes_atConflictDivider.andThen fun divides l₂ _ hl₂ => ?_
        obtain rfl := hl₂
        refine .ite (fun _ => ?_) fun _ => hfrom hrest
        exact goes_conflictSpan.bind fun _ _ => (goes_conflictLine 7).bind fun _ _ =>
          .stops (.failAt _ _)

theorem goes_hashbang? : Goes l l (fun t? _ => ∀ t ∈ t?, t.isOther = true) hashbang? := by
  refine .after (fun _ => runOn_lexer) ?_
  split
  · refine (Goes.skip 2).bind fun _ _ => (Goes.takeWhile _).bind fun _ _ => .pure fun t h => ?_
    obtain rfl := Option.some.inj h
    rfl
  · exact .pure fun _ h => (by cases h)

theorem goes_afterSpaceIn (hc : c.Plain) {before : Text} (hbefore : l.rest <:+ before) :
    Goes l l (fun t? l' => ∀ t ∈ t?, Fits before t l') (afterSpaceIn c) := by
  refine .after (fun _ => runOn_lexer) (.ite (fun _ => ?_) fun _ => ?_)
  · exact (Goes.modify (.handOver _)).bind fun _ _ => .pure fun _ h => (by cases h)
  · rw [hc.tags]
    refine .ite (fun h => by cases h) fun _ => .ite (fun _ => ?_) fun _ => ?_
    · refine goes_templatePart.andThen fun t l' _ ht => .pure fun t' h => ?_
      obtain rfl := Option.some.inj h
      exact fits_of_isOther ht
    · refine .after (fun _ => runOn_lexer) (goes_token.mono fun t? l' _ ht t hmem => ?_)
      exact (ht t hmem).mono hbefore

/-- The next token fits what was to be read. -/
theorem goes_nextToken (hregex : l.regexFrom = none) :
    Goes l l (fun t? l' => ∀ t ∈ t?, Fits l.rest t l') nextToken := by
  unfold nextToken
  refine .readThen fun c hc => .after (fun _ => runOn_lexer) ?_
  rw [hregex]
  refine .after (fun _ => rfl) (Goes.behind ?_ (.of_eq rfl rfl rfl))
  have htail (blanksBelong : Bool) (l₁ : Lexer) (hbehind : l₁.rest <:+ l.rest) :
      Goes l₁ l₁ (fun t? l' => ∀ t ∈ t?, Fits l.rest t l') (do
        modify fun l => { l with lineBreak := l.atStart, atStart := false }
        if !blanksBelong then modify (·.skipSpace c)
        modify fun l => { l with tokenStart := l.position }
        afterSpaceIn c) := by
    have hrest (l₂ : Lexer) (hbehind : l₂.rest <:+ l.rest) :
        Goes l₂ l₂ (fun t? l' => ∀ t ∈ t?, Fits l.rest t l') (do
          modify fun l => { l with tokenStart := l.position }
          afterSpaceIn c) := by
      refine .after (fun _ => rfl) (Goes.behind ?_ (.of_eq rfl rfl rfl))
      exact goes_afterSpaceIn hc hbehind
    refine .after (fun _ => rfl) (Goes.behind ?_ (.of_eq rfl rfl rfl))
    refine .ite (fun _ => .after (fun _ => rfl) ?_) fun _ => hrest _ hbehind
    have hon := Lexer.Onward.skipSpace { l₁ with lineBreak := l₁.atStart, atStart := false } c
    exact (hrest _ (hon.rest.trans hbehind)).behind hon
  refine .ite (fun _ => ?_) fun _ => htail _ _ (List.suffix_refl _)
  refine goes_hashbang?.andThen fun t? l₁ hon ht => ?_
  cases t? with
  | some t =>
    refine .pure fun t' h => ?_
    obtain rfl := Option.some.inj h
    exact fits_of_isOther (ht t rfl)
  | none => exact htail _ l₁ hon.rest

end Read

namespace Lexer

theorem next_onward (hc : c.Plain) (hregex : l.regexFrom = none) {p : Option PlacedToken}
    (h : l.next c = (p, l')) :
    l.Onward l' ∧ ∀ q ∈ p, Read.Fits l.rest q.token l' := by
  obtain ⟨hon, hgives⟩ := Read.goes_nextToken hregex c hc
  cases hrun : Read.runOn Read.nextToken c l with
  | mk result after =>
    rw [hrun] at hon hgives
    unfold Read.runOn at hrun
    unfold Lexer.next at h
    rw [hrun] at h
    -- What is remembered of a token does not matter to what is left.
    have hled (start : Nat) (t : Token) :
        l.Onward ((led after).remember start t) := hon.trans (.of_eq rfl rfl rfl)
    cases result with
    | error e =>
      obtain ⟨rfl, rfl⟩ := Prod.mk.inj h
      refine ⟨hled _ _, fun q hq => ?_⟩
      obtain rfl := Option.some.inj hq
      exact Read.fits_of_isOther (l := after) rfl
    | ok t? =>
      cases t? with
      | none =>
        obtain ⟨rfl, rfl⟩ := Prod.mk.inj h
        exact ⟨hon, fun q hq => by cases hq⟩
      | some t =>
        obtain ⟨rfl, rfl⟩ := Prod.mk.inj h
        refine ⟨hled _ _, fun q hq => ?_⟩
        obtain rfl := Option.some.inj hq
        exact hgives _ rfl t rfl

theorem next_gap {gap rest : Text} {ch : Char} {n : Nat} {errors : List SyntaxError} (hc : c.Plain)
    (hl : l.Faces (gap ++ ch :: rest) n errors) (hgap : Gap gap) (hch : isPlainStart ch = true)
    (hdivider : NotDivider (ch :: rest)) :
    ∃ p l', l.next c = (some p, l') ∧ (p.token.isOther = false → Read.mayStart ch = true) := by
  have hrest := (hgap.passed (c := c) hch hl.rest).1
  have hgives := (Read.goes_tokenFrom hrest c hc).2
  have hnext := runOn_nextToken_gap (c := c) hl hgap hch hdivider
  rw [Read.runOn_bind] at hnext
  cases hrun : Read.runOn (Read.tokenFrom ch) c (Read.spaced c l) with
  | mk r after =>
    rw [hrun] at hgives hnext
    cases r with
    | error e =>
      refine ⟨⟨.broken e, ⟨after.tokenStart, after.position⟩, after.lineBreak⟩,
        (led after).remember after.tokenStart (.broken e), ?_, fun hword => by cases hword⟩
      unfold Lexer.next
      unfold Read.runOn at hnext
      rw [hnext]
      rfl
    | ok t => exact ⟨_, _, next_of_runOn hnext, (hgives t rfl).2⟩

end Lexer

end InlineTemplates.Script
