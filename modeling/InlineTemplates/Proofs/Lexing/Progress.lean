import InlineTemplates.Proofs.Lexing.Tokens

/-! # Reading goes onward

In code without tags no step of the lexer reads again what was read, and none takes back an error. An
escape takes as many characters as it gives or more, and so does a string. -/

namespace InlineTemplates.Script

/-- What was read stays read, and errors that were noted stay noted. -/
structure Lexer.Onward (l l' : Lexer) : Prop where
  rest : l'.rest <:+ l.rest
  regexFrom : l'.regexFrom = l.regexFrom
  errors : l.record.errors <+: l'.record.errors

/-- A context without tags in which errors count. -/
structure Context.Plain (c : Context) : Prop where
  tags : c.dialect.tags = false
  trial : c.trial = false

variable {c : Context} {l₀ l l' : Lexer}

namespace Lexer.Onward

theorem refl (l : Lexer) : l.Onward l := ⟨List.suffix_refl _, rfl, List.prefix_refl _⟩

theorem trans {l'' : Lexer} (h : l.Onward l') (h' : l'.Onward l'') : l.Onward l'' where
  rest := h'.rest.trans h.rest
  regexFrom := h'.regexFrom.trans h.regexFrom
  errors := h.errors.trans h'.errors

theorem skip (l : Lexer) (n : Nat) : l.Onward (l.skip n) :=
  ⟨List.drop_suffix _ _, rfl, List.prefix_refl _⟩

theorem addError (l : Lexer) (e : SyntaxError) : l.Onward (l.addError e) :=
  ⟨List.suffix_refl _, rfl, List.prefix_append _ _⟩

theorem report (l : Lexer) (c : Context) (span : Span) (kind : SyntaxErrorKind) :
    l.Onward (l.report c span kind) := by
  unfold Lexer.report
  split
  · exact refl l
  · exact addError l _

theorem of_eq (hrest : l'.rest = l.rest) (hregex : l'.regexFrom = l.regexFrom)
    (hrecord : l'.record = l.record) : l.Onward l' :=
  ⟨hrest ▸ List.suffix_refl _, hregex, hrecord ▸ List.prefix_refl _⟩

theorem broken (l : Lexer) (b : Bool) :
    l.Onward (if b then { l with lineBreak := true } else l) := by
  cases b <;> exact of_eq rfl rfl rfl

theorem errors_nil (h : l.Onward l') (hl : l'.record.errors = []) : l.record.errors = [] :=
  List.prefix_nil.mp (hl ▸ h.errors)

theorem length_le (h : l.Onward l') : l'.rest.length ≤ l.rest.length := h.rest.length_le

/-! ## Blanks and comments -/

theorem place (l : Lexer) (forNext : Bool) (comment : Comment) :
    l.Onward (l.place forNext comment) := by
  unfold Lexer.place
  split <;> exact of_eq rfl rfl rfl

theorem skipBlanks (l : Lexer) : l.Onward l.skipBlanks := (broken l _).trans (skip _ _)

theorem skipLine (l : Lexer) (mark : Nat) : l.Onward (l.skipLine mark) :=
  ((skip l _).trans (skip _ _)).trans (place _ _ _)

theorem skipBlock (l : Lexer) (c : Context) : l.Onward (l.skipBlock c) := by
  unfold Lexer.skipBlock
  extract_lets forNext inner
  have hinner : l.Onward inner := skip l 2
  split
  rename_i content closed _
  extract_lets isBroken
  split
  · exact (((hinner.trans (skip _ _)).trans (broken _ _)).trans (skipBlanks _)).trans (place _ _ _)
  · exact ((hinner.trans (skip _ _)).trans (broken _ _)).trans (report _ _ _ _)

theorem skipSpaceUpTo (c : Context) (n : Nat) (l : Lexer) : l.Onward (Lexer.skipSpaceUpTo c n l) := by
  induction n generalizing l with
  | zero => exact refl l
  | succ n ih =>
    unfold Lexer.skipSpaceUpTo
    dsimp only
    split
    · exact ((skipBlanks l).trans (skipLine _ _)).trans (ih _)
    · exact ((skipBlanks l).trans (skipBlock _ _)).trans (ih _)
    · exact skipBlanks l

theorem skipSpace (l : Lexer) (c : Context) : l.Onward (l.skipSpace c) := skipSpaceUpTo c _ l

theorem handOver (l : Lexer) : l.Onward l.handOver :=
  ⟨List.suffix_refl _, rfl, List.prefix_refl _⟩

end Lexer.Onward

def Token.isOther : Token → Bool
  | .name _ _ | .keyword _ | .string _ _ => false
  | _ => true

namespace Read

variable {α β : Type} {Q : β → Lexer → Prop}

/-- Run at `l`, the step ends behind `l₀`, and what it gives and leaves has the property. -/
def Goes (l₀ l : Lexer) (Q : β → Lexer → Prop) (step : Read β) : Prop :=
  ∀ c, c.Plain → l₀.Onward (runOn step c l).2 ∧
    ∀ b, (runOn step c l).1 = .ok b → Q b (runOn step c l).2

/-- From here the step goes onward. -/
abbrev On (l : Lexer) (step : Read β) : Prop := Goes l l (fun _ _ => True) step

abbrev IsOther (t : Token) (_ : Lexer) : Prop := t.isOther = true

namespace Goes

theorem after {l₀ l₁ : Lexer} {step : Read α} {next : α → Read β} {a : α}
    (hrun : ∀ c, runOn step c l = (.ok a, l₁)) (hnext : Goes l₀ l₁ Q (next a)) :
    Goes l₀ l Q (step >>= next) := by
  intro c hc
  rw [runOn_bind, hrun]
  exact hnext c hc

theorem ite {l₀ : Lexer} {p : Prop} [Decidable p] {step other : Read β} (h : p → Goes l₀ l Q step)
    (h' : ¬ p → Goes l₀ l Q other) : Goes l₀ l Q (if p then step else other) := by
  split
  · exact h ‹_›
  · exact h' ‹_›

theorem pure {b : β} (h : Q b l) : Goes l l Q (pure b) := by
  refine fun c hc => ⟨.refl l, fun b' hb => ?_⟩
  obtain rfl := Except.ok.inj hb
  exact h

theorem on {step : Read β} (h : Goes l l Q step) : On l step :=
  fun c hc => ⟨(h c hc).1, fun _ _ => trivial⟩

theorem mono {R : β → Lexer → Prop} {step : Read β} (h : Goes l l Q step)
    (hR : ∀ b l', l.Onward l' → Q b l' → R b l') : Goes l l R step :=
  fun c hc => ⟨(h c hc).1, fun b hb => hR b _ (h c hc).1 ((h c hc).2 b hb)⟩

theorem behind {l₀ : Lexer} {step : Read β} (h : Goes l l Q step) (hon : l₀.Onward l) :
    Goes l₀ l Q step :=
  fun c hc => ⟨hon.trans (h c hc).1, (h c hc).2⟩

theorem thenBack {P : α → Lexer → Prop} {step : Read α} {next : α → Read β} (h : Goes l l P step)
    (hnext : ∀ a l₁, l.Onward l₁ → P a l₁ → Goes l l₁ Q (next a)) :
    Goes l l Q (step >>= next) := by
  intro c hc
  obtain ⟨hon, hgives⟩ := h c hc
  rw [runOn_bind]
  cases hrun : runOn step c l with
  | mk r l₁ =>
    rw [hrun] at hon hgives
    cases r with
    | error e => exact ⟨hon, fun b hb => by cases hb⟩
    | ok a => exact hnext a l₁ hon (hgives a rfl) c hc

theorem andThen {P : α → Lexer → Prop} {step : Read α} {next : α → Read β} (h : Goes l l P step)
    (hnext : ∀ a l₁, l.Onward l₁ → P a l₁ → Goes l₁ l₁ Q (next a)) : Goes l l Q (step >>= next) :=
  h.thenBack fun a l₁ hon ha => (hnext a l₁ hon ha).behind hon

theorem stops {step : Read α} {next : α → Read β} (h : Goes l l (fun _ _ => False) step) :
    Goes l l Q (step >>= next) := h.andThen fun _ _ _ h => h.elim

theorem bind {step : Read α} {next : α → Read β} (h : On l step)
    (hnext : ∀ a l₁, Goes l₁ l₁ Q (next a)) : Goes l l Q (step >>= next) :=
  h.andThen fun a l₁ _ _ => hnext a l₁

theorem readThen {l₀ : Lexer} {next : Context → Read β}
    (hnext : ∀ c, c.Plain → Goes l₀ l Q (next c)) : Goes l₀ l Q (read >>= next) := by
  intro c hc
  exact hnext c hc c hc

theorem lexer : On l lexer := fun _ _ => ⟨.refl l, fun _ _ => trivial⟩

theorem next? : On l next? := fun _ _ => ⟨.refl l, fun _ _ => trivial⟩

theorem ahead? (n : Nat) : On l (ahead? n) := fun _ _ => ⟨.refl l, fun _ _ => trivial⟩

theorem position : On l position := fun _ _ => ⟨.refl l, fun _ _ => trivial⟩

theorem since (before : Lexer) : On l (since before) := fun _ _ => ⟨.refl l, fun _ _ => trivial⟩

theorem modify {f : Lexer → Lexer} (h : l.Onward (f l)) : On l (modify f) :=
  fun _ _ => ⟨h, fun _ _ => trivial⟩

theorem skip (n : Nat) : On l (skip n) := modify (.skip l n)

theorem takeWhile (p : Char → Bool) : On l (takeWhile p) :=
  fun _ _ => ⟨.skip l _, fun _ _ => trivial⟩

theorem accept (ch : Char) :
    Goes l l (fun b l' => b = true → l'.rest.length + 1 ≤ l.rest.length) (accept ch) := by
  refine .after (fun _ => runOn_next?) (.ite (fun h => ?_) fun _ => pure fun h => by cases h)
  refine .after (fun _ => runOn_skip 1) (behind (pure fun _ => ?_) (.skip l 1))
  rw [Lexer.rest_skip, List.length_drop]
  cases hrest : l.rest with
  | nil =>
    rw [hrest] at h
    cases h
  | cons _ _ => exact Nat.le_refl _

theorem failAt (span : Span) (kind : SyntaxErrorKind) : Goes l l Q (failAt span kind : Read β) :=
  fun _ _ => ⟨.refl l, fun _ h => by cases h⟩

theorem fail (start : Nat) (kind : SyntaxErrorKind) : Goes l l Q (fail start kind : Read β) :=
  position.bind fun _ _ => failAt _ _

theorem noteAt (span : Span) (kind : SyntaxErrorKind) :
    Goes l l (fun _ l' => l'.record.errors ≠ []) (noteAt span kind) := by
  intro c hc
  refine ⟨.report l c span kind, fun _ _ => ?_⟩
  change (l.report c span kind).record.errors ≠ []
  rw [Lexer.report, hc.trial]
  exact List.append_ne_nil_of_right_ne_nil _ (List.cons_ne_nil _ _)

theorem note (start : Nat) (kind : SyntaxErrorKind) :
    Goes l l (fun _ l' => l'.record.errors ≠ []) (note start kind) :=
  position.bind fun _ _ => noteAt _ _

theorem noteStrict (start : Nat) (kind : SyntaxErrorKind) : On l (noteStrict start kind) :=
  readThen fun _ _ => .ite (fun _ => (note _ _).on) fun _ => pure trivial

theorem attempt {step : Read α} {P : α → Lexer → Prop} (h : Goes l l P step) :
    Goes l l (fun r l' => ∀ a, r = .ok a → P a l') (attempt step) := by
  intro c hc
  have hrun : runOn (Read.attempt step) c l =
      (.ok (runOn step c l).1, (runOn step c l).2) := by
    -- What is attempted is run once, so its outcome may stand for it.
    have honce : runOn (Read.attempt step) c l =
        runOn (Read.attempt (fun _ _ => runOn step c l : Read α)) c l := rfl
    rw [honce]
    generalize runOn step c l = outcome
    obtain ⟨r, l₁⟩ := outcome
    cases r <;> rfl
  rw [hrun]
  refine ⟨(h c hc).1, fun r hr a ha => ?_⟩
  obtain rfl := Except.ok.inj hr
  exact (h c hc).2 a ha

theorem forM {as : List α} (step : α → Read Unit) (h : ∀ a l₁, On l₁ (step a)) :
    On l (as.forM step) := by
  induction as generalizing l with
  | nil => exact pure trivial
  | cons a as ih => exact (h a l).bind fun _ _ => ih

end Goes

/-! ## Numbers -/

theorem goes_digitsUntil (radix : Nat) (full : Text → Bool) : On l (digitsUntil radix full) :=
  Goes.lexer.bind fun _ _ => (Goes.forM _ fun _ _ => (Goes.noteAt _ _).on).bind fun _ _ =>
    (Goes.skip _).bind fun _ _ => .pure trivial

theorem goes_someDigits (radix : Nat) : On l (someDigits radix) :=
  Goes.position.bind fun _ _ => (goes_digitsUntil _ _).bind fun _ _ =>
    .ite (fun _ => (Goes.fail _ _).bind fun _ _ => .pure trivial) fun _ => .pure trivial

theorem goes_noNameHere : On l noNameHere :=
  Goes.next?.bind fun _ _ => .ite (fun _ => Goes.position.bind fun _ _ => .failAt _ _)
    fun _ => .pure trivial

theorem goes_radixNumber (radix : Nat) : Goes l l IsOther (radixNumber radix) := by
  unfold radixNumber
  refine Goes.lexer.bind fun before _ => (Goes.skip 2).bind fun _ _ => ?_
  refine (goes_someDigits radix).bind fun ds _ => (Goes.accept 'n').on.bind fun _ _ => ?_
  refine .ite (fun _ => (Goes.since _).bind fun _ _ => .pure rfl) fun _ => ?_
  exact goes_noNameHere.bind fun _ _ => (Goes.since _).bind fun _ _ => .pure rfl

theorem goes_legacyOctalNumber (before : Lexer) (value : Nat) :
    Goes l l IsOther (legacyOctalNumber before value) := by
  have hrest (l : Lexer) : Goes l l IsOther (do
      noteStrict before.position .legacyOctal
      return .number (.ofNat value) (← since before)) :=
    (Goes.noteStrict _ _).bind fun _ _ => (Goes.since _).bind fun _ _ => .pure rfl
  unfold legacyOctalNumber
  refine goes_noNameHere.bind fun _ _ => Goes.readThen fun _ _ => ?_
  exact .ite (fun _ => (Goes.note _ _).on.bind fun _ _ => hrest _) fun _ => hrest _

theorem goes_numberTail (before : Lexer) (whole : Text) :
    Goes l l IsOther (numberTail before whole) := by
  unfold numberTail
  refine Goes.next?.bind fun _ _ => ?_
  extract_lets exponent fraction
  have hfraction (l : Lexer) (part : Text) : Goes l l IsOther (fraction () part) := by
    refine Goes.next?.bind fun _ _ => Goes.next?.bind fun _ _ => ?_
    extract_lets value ending
    have hending (l : Lexer) (n : Int) : Goes l l IsOther (ending () n) :=
      goes_noNameHere.bind fun _ _ => (Goes.since _).bind fun _ _ => .pure rfl
    refine .ite (fun _ => (Goes.skip 1).bind fun _ _ => Goes.next?.bind fun sign _ => ?_) fun _ =>
      hending _ _
    cases sign with
    | none => exact Goes.position.bind fun _ _ => (Goes.fail _ _).bind fun _ _ => hending _ _
    | some sign =>
      have hsigned (l : Lexer) : Goes l l IsOther (do
          let ds ← someDigits 10
          let n : Int := Text.digitsValue 10 ds
          ending () (if sign == '-' then -n else n)) :=
        (goes_someDigits 10).bind fun _ _ => hending _ _
      exact .ite (fun _ => (Goes.skip 1).bind fun _ _ => hsigned _) fun _ => hsigned _
  exact .ite (fun _ => (Goes.skip 1).bind fun _ _ => (goes_digitsUntil _ _).bind fun _ _ =>
    hfraction _ _) fun _ => hfraction _ _

theorem goes_number (startsWithDot : Bool) : Goes l l IsOther (number startsWithDot) := by
  unfold number
  refine Goes.lexer.bind fun before _ => .ite (fun _ => goes_numberTail _ _) fun _ => ?_
  refine Goes.next?.bind fun _ _ => (goes_someDigits 10).bind fun ds _ => ?_
  refine (Goes.accept 'n').on.bind fun _ _ => .ite (fun _ => ?_) fun _ => ?_
  · exact (Goes.since _).bind fun _ _ => .pure rfl
  · refine .ite (fun _ => .ite (fun _ => ?_) fun _ => ?_) fun _ => goes_numberTail _ _
    · exact Goes.position.bind fun _ _ => .ite (fun _ => goes_legacyOctalNumber _ _) fun _ =>
        goes_numberTail _ _
    · exact .ite (fun _ => (Goes.noteStrict _ _).bind fun _ _ => goes_numberTail _ _) fun _ =>
        goes_legacyOctalNumber _ _

/-! ## Escapes -/

theorem goes_hexDigits (limit : Nat) : On l (hexDigits limit) :=
  (goes_digitsUntil _ _).bind fun _ _ => .ite (fun _ => .pure trivial) fun _ => .pure trivial

/-- What a code point that is written out gives: a character, or itself with the backslash. -/
def IsCodePoint (chars : Text) : Prop := (∃ ch, chars = [ch]) ∨ chars.head? = some '\\'

theorem goes_unicodeEscape {more : Text} (h : l.rest = 'u' :: more) :
    Goes l l (fun chars l' => chars.length + l'.rest.length ≤ l.rest.length + 1 ∧ IsCodePoint chars)
      unicodeEscape := by
  unfold unicodeEscape
  have hskip : (l.skip 1).rest.length + 1 = l.rest.length := by
    rw [Lexer.rest_skip, h]
    rfl
  refine .after (fun _ => runOn_skip 1) (Goes.behind ?_ (.skip l 1))
  refine (Goes.accept '\x7b').andThen fun curly before hon hcurly => ?_
  have hbefore : before.rest.length + (if curly then 2 else 1) ≤ l.rest.length := by
    have := hon.length_le
    cases curly with
    | true =>
      have := hcurly rfl
      simp only [if_true]
      omega
    | false =>
      simp only [Bool.false_eq_true, if_false]
      omega
  refine .after (fun _ => runOn_lexer) ?_
  -- Behind the digits the rest is read from there or from where they start.
  have hlast (l' : Lexer) (chars : Text) (hchars : IsCodePoint chars)
      (hlength : chars.length + l'.rest.length ≤ l.rest.length + if curly then 2 else 1) :
      Goes l' l' (fun chars l' => chars.length + l'.rest.length ≤ l.rest.length + 1 ∧
        IsCodePoint chars) (do
          if curly then
            if !(← accept '\x7d') then fail before.position .invalidUnicodeEscape
          return chars) := by
    cases curly with
    | true =>
      refine (Goes.accept '\x7d').andThen fun closed l₁ _ hclosed => ?_
      cases closed with
      | true =>
        refine .pure ⟨?_, hchars⟩
        have := hclosed rfl
        simp only [if_true] at hlength
        omega
      | false => exact .stops (.fail _ _)
    | false => exact .pure ⟨hlength, hchars⟩
  refine (goes_hexDigits _).thenBack fun value? digits hdigits _ => ?_
  cases value? with
  | none => exact (Goes.position.bind fun _ _ => .fail _ _).behind hdigits
  | some value =>
    dsimp only
    refine .ite (fun _ => ?_) fun _ => .ite (fun _ => ?_) fun _ => ?_
    · exact (Goes.position.bind fun _ _ => .stops (.fail _ _)).behind hdigits
    · -- The state is that behind the opening again, but for the errors.
      have hback : before.Onward { digits with rest := before.rest, position := before.position } :=
        ⟨List.suffix_refl _, hdigits.regexFrom, hdigits.errors⟩
      refine .after (fun _ => rfl) (.after (fun _ => runOn_skip _) ?_)
      refine .after (fun _ => rfl) ((hlast _ _ ?_ ?_).behind (hback.trans (.skip _ _)))
      · cases curly <;> exact .inr rfl
      · rw [Lexer.rest_skip, List.length_drop]
        cases curly with
        | true =>
          have hrun : ((before.rest.take 6).takeWhile (· != '\x7d')).length ≤ before.rest.length :=
            Nat.le_trans (List.takeWhile_prefix _).length_le (List.length_take_le' _ _)
          simp only [if_true, List.length_append, List.length_cons, List.length_nil] at hbefore hrun ⊢
          omega
        | false =>
          simp only [Bool.false_eq_true, if_false, List.length_append, List.length_cons,
            List.length_nil, List.length_take] at hbefore ⊢
          omega
    · refine .after (fun _ => rfl) ((hlast digits _ (.inl ⟨_, rfl⟩) ?_).behind hdigits)
      have := hdigits.length_le
      rw [List.length_singleton]
      cases curly with
      | true =>
        simp only [if_true] at hbefore ⊢
        omega
      | false =>
        simp only [Bool.false_eq_true, if_false] at hbefore ⊢
        omega

theorem goes_octalDigits (n value : Nat) : On l (octalDigits n value) := by
  induction n generalizing l value with
  | zero => exact .pure trivial
  | succ n ih =>
    refine Goes.next?.bind fun _ _ => ?_
    split
    · exact .ite (fun _ => (Goes.skip 1).bind fun _ _ => ih _) fun _ => .pure trivial
    · exact .pure trivial

theorem goes_escape {first : Char} {more : Text} (inTemplate : Bool) (h : l.rest = first :: more) :
    Goes l l (fun chars l' => l'.rest.length < l.rest.length ∧
      chars.length + l'.rest.length ≤ l.rest.length ∧
        (more.head? ≠ some 'u' → chars.length + l'.rest.length < l.rest.length))
      (escape inTemplate) := by
  have hskip : (l.skip 1).rest = more := by
    rw [Lexer.rest_skip, h]
    rfl
  unfold escape
  refine .after (fun _ => rfl) (.after (fun _ => runOn_skip 1) (Goes.behind ?_ (.skip l 1)))
  have hbehind {l' : Lexer} (hon : (l.skip 1).Onward l') : l'.rest.length < l.rest.length := by
    have hle := hon.length_le
    rw [hskip] at hle
    rw [h]
    exact Nat.lt_succ_of_le hle
  refine Goes.mono ?_ fun _ _ hon hchars => ⟨hbehind hon, hchars⟩
  refine .after (fun _ => runOn_next?) ?_
  rw [hskip]
  cases more with
  | nil => exact .failAt _ _
  | cons ch rest =>
    have hlength : l.rest.length = rest.length + 2 := congrArg List.length h
    -- All but a code point give one character at most and take two or more.
    have hshort {step : Read Text} (hstep : Goes ((l.skip 1).skip 1) ((l.skip 1).skip 1)
        (fun chars _ => chars.length ≤ 1) step) :
        Goes (l.skip 1) (l.skip 1) (fun chars l' => chars.length + l'.rest.length ≤ l.rest.length ∧
          ((ch :: rest).head? ≠ some 'u' → chars.length + l'.rest.length < l.rest.length))
          (do skip 1; step) := by
      refine .after (fun _ => runOn_skip 1) (Goes.behind ?_ (.skip _ 1))
      refine hstep.mono fun chars l' hon hchars => ?_
      have hrest := hon.length_le
      rw [Lexer.rest_skip, hskip] at hrest
      simp only [List.drop_succ_cons, List.drop_zero] at hrest
      omega
    have hplain (x : Char) := hshort (Goes.pure (b := [x]) (Nat.le_refl 1))
    have hnone := hshort (Goes.pure (b := []) (Nat.zero_le 1))
    have hoctal : Goes ((l.skip 1).skip 1) ((l.skip 1).skip 1) (fun chars _ => chars.length ≤ 1) (do
        if ch == '0' && !((← next?).any (Text.isDigitOf 8)) then return ['\x00']
        if inTemplate then fail l.position .legacyOctal
        noteStrict l.position .legacyOctal
        return [Char.ofNat (← octalDigits 2 (Text.digitsValue 8 [ch]))]) := by
      refine Goes.next?.bind fun _ _ => .ite (fun _ => .pure (Nat.le_refl 1)) fun _ => ?_
      refine .ite (fun _ => .stops (.fail _ _)) fun _ => (Goes.noteStrict _ _).bind fun _ _ => ?_
      exact (goes_octalDigits _ _).bind fun _ _ => .pure (Nat.le_refl 1)
    split
    · next heq => cases heq
    · next ch' heq =>
      obtain rfl := Option.some.inj heq
      split
      · exact hplain _
      · exact hplain _
      · exact hplain _
      · exact hplain _
      · exact hplain _
      · exact hplain _
      · exact hshort ((Goes.accept '\n').on.bind fun _ _ => .pure (Nat.zero_le 1))
      · exact hnone
      · exact hnone
      · exact hnone
      · refine hshort ((goes_hexDigits 2).bind fun v _ => ?_)
        cases v with
        | none => exact .fail _ _
        | some v => exact .pure (Nat.le_refl 1)
      · -- A code point gives as many characters as it takes, or fewer.
        have hcode : (l.skip 1).rest = 'u' :: rest := hskip
        refine (goes_unicodeEscape hcode).attempt.andThen fun result l' _ hresult => ?_
        cases result with
        | error e => exact .fail _ _
        | ok chars =>
          refine .pure ⟨?_, fun hne => absurd rfl hne⟩
          have hchars := (hresult chars rfl).1
          rw [hskip, List.length_cons] at hchars
          omega
      all_goals first | exact hshort hoctal | exact hplain _

/-! ## Strings -/

/-- The characters that a string has as they are. -/
def IsVerbatim (quote : Char) (body : Text) : Prop :=
  ∀ ch ∈ body, ch ≠ quote ∧ ch ≠ '\\' ∧ ch ≠ '\n' ∧ ch ≠ '\r'

instance (quote : Char) (body : Text) : Decidable (IsVerbatim quote body) :=
  List.decidableBAll (fun ch => ch ≠ quote ∧ ch ≠ '\\' ∧ ch ≠ '\n' ∧ ch ≠ '\r') body

theorem IsVerbatim.quoted {quote : Char} {body : Text} (h : IsVerbatim quote body) :
    Quoted quote body body := by
  induction body with
  | nil => exact .nil
  | cons ch body ih =>
    obtain ⟨hch, hbody⟩ := List.forall_mem_cons.mp h
    exact .char hch (ih hbody)

/-- What is left behind the body of a string that says this. A body that says as much as it has
characters has no escape but of code points. -/
def EndsString (quote : Char) (said before after : Text) : Prop :=
  ∃ body, before = body ++ quote :: after ∧ said.length ≤ body.length ∧
    (said.length = body.length → ¬ ['\\', 'u'] <:+: body → IsVerbatim quote body)

namespace EndsString

variable {quote : Char} {said before after run : Text}

theorem here (hrun : IsVerbatim quote run) : EndsString quote run (run ++ quote :: after) after :=
  ⟨run, rfl, Nat.le_refl _, fun _ _ => hrun⟩

theorem behind (hrun : IsVerbatim quote run) (h : EndsString quote said before after) :
    EndsString quote (run ++ said) (run ++ before) after := by
  obtain ⟨body, rfl, hlength, hverbatim⟩ := h
  refine ⟨run ++ body, (List.append_assoc _ _ _).symm, ?_, fun heq hcode => ?_⟩
  · simpa using hlength
  · have heq : said.length = body.length := by simpa using heq
    have hbody := hverbatim heq fun hin => hcode (hin.trans (List.suffix_append _ _).isInfix)
    exact List.forall_mem_append.mpr ⟨hrun, hbody⟩

theorem escape {chars more left : Text} (hquote : quote ≠ 'u') (hleft : left <:+ '\\' :: more)
    (hshorter : left.length < more.length + 1)
    (hlength : chars.length + left.length ≤ more.length + 1)
    (hcode : more.head? ≠ some 'u' → chars.length + left.length < more.length + 1)
    (h : EndsString quote said left after) :
    EndsString quote (chars ++ said) ('\\' :: more) after := by
  obtain ⟨body, rfl, hsaid, hverbatim⟩ := h
  obtain ⟨taken, htaken⟩ := hleft
  obtain ⟨rest, rfl⟩ : ∃ rest, taken = '\\' :: rest := by
    cases taken with
    | nil =>
      have := congrArg List.length htaken
      simp only [List.nil_append, List.length_cons] at this
      omega
    | cons ch rest => exact ⟨rest, by rw [(List.cons.inj htaken).1]⟩
  obtain rfl : rest ++ (body ++ quote :: after) = more := (List.cons.inj htaken).2
  simp only [List.length_append, List.length_cons] at hlength hcode
  refine ⟨'\\' :: rest ++ body, by simp, ?_, fun heq hplain => ?_⟩
  · simp only [List.length_append, List.length_cons]
    omega
  · -- So the next character is the mark of a code point.
    simp only [List.length_append, List.length_cons] at heq
    have hu : (rest ++ (body ++ quote :: after)).head? = some 'u' := by
      refine Decidable.byContradiction fun hne => ?_
      have := hcode hne
      omega
    have hin : ['\\', 'u'] <:+: '\\' :: rest ++ body := by
      rw [← List.append_assoc] at hu
      rw [List.cons_append]
      cases hboth : rest ++ body with
      | nil =>
        rw [hboth] at hu
        exact absurd (Option.some.inj hu) hquote
      | cons ch tail =>
        rw [hboth] at hu
        obtain rfl := Option.some.inj hu
        exact ⟨[], tail, rfl⟩
    exact absurd hin hplain

end EndsString

/-- If no error is noted, a string ends with its quote. -/
theorem goes_stringRest {before : Lexer} {quote : Char} (hquote : quote = '\'' ∨ quote = '"')
    (n : Nat) (value : Text) (hn : l.rest.length < n) :
    Goes l l (fun t l' => ∃ said raw, t = .string (value ++ said) raw ∧
      (l'.record.errors = [] → EndsString quote said l.rest l'.rest))
      (stringRest before quote n value) := by
  induction n generalizing l value with
  | zero => exact absurd hn (Nat.not_lt_zero _)
  | succ n ih =>
    have hrun : IsVerbatim quote
        (l.rest.takeWhile fun c => c != quote && c != '\\' && c != '\n' && c != '\r') := by
      intro ch hch
      simpa [and_assoc] using List.all_eq_true.mp List.all_takeWhile ch hch
    have hparts := (List.takeWhile_append_dropWhile (l := l.rest)
      (p := fun c => c != quote && c != '\\' && c != '\n' && c != '\r')).symm
    unfold stringRest
    refine .after (fun _ => runOn_takeWhile _) ?_
    generalize l.rest.takeWhile _ = run at hrun hparts ⊢
    generalize l.rest.dropWhile _ = left at hparts
    have hleft : (l.skip run.length).rest = left := Lexer.rest_skip_of_append hparts rfl
    -- Where the string ends without its quote, an error is noted.
    have hbroken : Goes (l.skip run.length) (l.skip run.length) (fun t l' => ∃ said raw,
        t = Token.string (value ++ said) raw ∧
          (l'.record.errors = [] → EndsString quote said l.rest l'.rest)) (do
        note before.position .unterminatedString
        return Token.string (value ++ run) (← since before)) := by
      refine (Goes.note _ _).andThen fun _ l' _ herrors => ?_
      exact .after (fun _ => runOn_since _) (.pure ⟨_, _, rfl, fun h => absurd h herrors⟩)
    refine Goes.behind (.after (fun _ => runOn_next?) ?_) (.skip l _)
    rw [hleft]
    split
    · next hhead =>
      obtain ⟨more, rfl⟩ : ∃ more, left = '\\' :: more := by
        cases left with
        | nil => cases hhead
        | cons ch more => exact ⟨more, by rw [Option.some.inj hhead]⟩
      have hne : quote ≠ 'u' := by
        rcases hquote with rfl | rfl <;> decide
      refine (goes_escape false hleft).andThen fun chars l₁ hon hchars => ?_
      rw [hleft] at hchars
      have hshorter : l₁.rest.length < n := by
        have hlonger := hchars.1
        rw [hparts, List.length_append] at hn
        omega
      refine (ih _ hshorter).mono fun t l' _ ht => ?_
      obtain ⟨said, raw, rfl, hends⟩ := ht
      refine ⟨run ++ (chars ++ said), raw, by simp, fun herrors => ?_⟩
      rw [hparts]
      exact .behind hrun (.escape hne (hleft ▸ hon.rest) hchars.1 hchars.2.1 hchars.2.2
        (hends herrors))
    · next ch _ hhead =>
      obtain ⟨more, rfl⟩ : ∃ more, left = ch :: more := by
        cases left with
        | nil => cases hhead
        | cons ch more => exact ⟨more, by rw [Option.some.inj hhead]⟩
      refine .ite (fun heq => ?_) fun _ => hbroken
      obtain rfl := beq_iff_eq.mp heq
      refine .after (fun _ => runOn_skip 1) (Goes.behind ?_ (.skip _ 1))
      refine .after (fun _ => runOn_since _) (.pure ⟨_, _, rfl, fun _ => ?_⟩)
      rw [hparts, Lexer.rest_skip, hleft]
      exact .here hrun
    · exact hbroken

theorem goes_string {quote : Char} {more : Text} (hquote : quote = '\'' ∨ quote = '"')
    (h : l.rest = quote :: more) :
    Goes l l (fun t l' => ∃ value raw, t = .string value raw ∧
      (l'.record.errors = [] → EndsString quote value more l'.rest)) (string quote) := by
  have hskip : (l.skip 1).rest = more := by
    rw [Lexer.rest_skip, h]
    rfl
  unfold string
  refine .after (fun _ => runOn_lexer) (.after (fun _ => runOn_skip 1) (Goes.behind ?_ (.skip l 1)))
  have hlength : (l.skip 1).rest.length < l.rest.length + 1 := by
    rw [hskip, h, List.length_cons]
    omega
  exact hskip ▸ goes_stringRest hquote _ [] hlength

end Read

end InlineTemplates.Script
