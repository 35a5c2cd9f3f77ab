import InlineTemplates.Proofs.Lexing.Steps
import InlineTemplates.Proofs.Lexing.TokenSizes

/-! # Steps on unknown text

Where the tokens of a text are not known, a step that succeeds has still read on, and errors that were
noted are there at its end. If there are none, what the step took is what the lexer gives there. -/

namespace InlineTemplates.Script.Parse

variable {α β σ ρ : Type} {c : Context} {s s' : ParseState} {l l' : Lexer}

/-! ## What the lexer gives -/

theorem Before.onward (hc : c.Plain) (h : Before (· = c) l s) (hregex : l.regexFrom = none) :
    l.Onward s.lexer := by
  cases h with
  | fresh _ _ hlexer => exact hlexer ▸ .refl l
  | seen _ _ hc₀ hnext => exact (Lexer.next_onward hc hregex (hc₀ ▸ hnext)).1
  | waiting _ _ hc₀ hnext => exact (Lexer.next_onward hc hregex (hc₀ ▸ hnext)).1
  | both _ _ hc₀ hnext hc₁ hnext' =>
    have hfirst := (Lexer.next_onward hc hregex (hc₀ ▸ hnext)).1
    exact hfirst.trans (Lexer.next_onward hc (hfirst.regexFrom.trans hregex) (hc₁ ▸ hnext')).1

/-- A look at the next token moves the lexer only where there is none. -/
structure Looked (c : Context) (l l' : Lexer) : Prop where
  onward : l.Onward l'
  stays : (l.next c).1.isSome = true → l' = l

namespace Looked

theorem refl (l : Lexer) : Looked c l l := ⟨.refl l, fun _ => rfl⟩

theorem trans {l'' : Lexer} (h : Looked c l l') (h' : Looked c l' l'') : Looked c l l'' := by
  refine ⟨h.onward.trans h'.onward, fun hsome => ?_⟩
  obtain rfl := h.stays hsome
  exact h'.stays hsome

end Looked

/-- A step that succeeds reads on. If no error is noted, it takes the lexer from where it stands to a
place with the property. -/
def Passes (c : Context) (step : Parse α) (Q : Lexer → α → Lexer → Prop) : Prop :=
  ∀ s a s', runOn step c s = (.ok a, s') → s.lexer.regexFrom = none →
    s.lexer.Onward s'.lexer ∧
      (s'.lexer.record.errors = [] → ∀ l : Lexer, l.regexFrom = none → Before (· = c) l s →
        ∃ l' : Lexer, Before (· = c) l' s' ∧ l.Onward l' ∧ Q l a l')

abbrev Moves (c : Context) (step : Parse α) : Prop := Passes c step fun _ _ _ => True

namespace Passes

variable {P : Lexer → α → Lexer → Prop} {Q : Lexer → β → Lexer → Prop}

theorem pure (a : α) : Passes c (pure a) fun l b l' => b = a ∧ l' = l := by
  intro s b s' hrun _
  obtain ⟨hb, rfl⟩ := Prod.mk.inj hrun
  obtain rfl := Except.ok.inj hb
  exact ⟨.refl _, fun _ l _ hl => ⟨l, hl, .refl l, rfl, rfl⟩⟩

theorem mono {R : Lexer → α → Lexer → Prop} {step : Parse α} (h : Passes c step P)
    (hR : ∀ l a l', l.Onward l' → P l a l' → R l a l') : Passes c step R := by
  intro s a s' hrun hregex
  obtain ⟨hon, hpass⟩ := h s a s' hrun hregex
  refine ⟨hon, fun herrors l hl hbefore => ?_⟩
  obtain ⟨l', hbefore', hon', ha⟩ := hpass herrors l hl hbefore
  exact ⟨l', hbefore', hon', hR l a l' hon' ha⟩

theorem moves {step : Parse α} (h : Passes c step P) : Moves c step := h.mono fun _ _ _ _ _ => trivial

theorem andThen {step : Parse α} {next : α → Parse β} (h : Passes c step P)
    (hnext : ∀ a, Passes c (next a) fun l₁ b l₂ =>
      ∀ l : Lexer, l.Onward l₁ → P l a l₁ → Q l b l₂) : Passes c (step >>= next) Q := by
  intro s b s' hrun hregex
  obtain ⟨a, s₁, hstep, hrest⟩ := of_runOn_bind_ok hrun
  obtain ⟨hon, hpass⟩ := h s a s₁ hstep hregex
  obtain ⟨hon', hpass'⟩ := hnext a s₁ b s' hrest (hon.regexFrom.trans hregex)
  refine ⟨hon.trans hon', fun herrors l hl hbefore => ?_⟩
  obtain ⟨l₁, hbefore₁, hon₁, ha⟩ := hpass (hon'.errors_nil herrors) l hl hbefore
  obtain ⟨l₂, hbefore₂, hon₂, hb⟩ := hpass' herrors l₁ (hon₁.regexFrom.trans hl) hbefore₁
  exact ⟨l₂, hbefore₂, hon₁.trans hon₂, hb l hon₁ ha⟩

theorem bind {step : Parse α} {next : α → Parse β} (h : Moves c step)
    (hnext : ∀ a, Moves c (next a)) : Moves c (step >>= next) :=
  h.andThen fun a => (hnext a).mono fun _ _ _ _ _ _ _ _ => trivial

theorem perhaps {p : Prop} [Decidable p] {step : Parse Unit} {next : Unit → Parse β}
    (h : Moves c step) (hnext : ∀ a, Moves c (next a)) :
    Moves c (if p then step >>= next else next ()) := by
  split
  · exact h.bind hnext
  · exact hnext ()

theorem ite {p : Prop} [Decidable p] {step other : Parse α} (h : p → Passes c step P)
    (h' : ¬ p → Passes c other P) : Passes c (if p then step else other) P := by
  split
  · exact h ‹_›
  · exact h' ‹_›

theorem of_gives {step : Parse α} (h : Gives (fun _ => False) step) : Passes c step P :=
  fun s a s' hrun _ => (h c s a s' hrun).elim

theorem stops {step : Parse α} {next : α → Parse β} (h : Gives (fun _ => False) step) :
    Passes c (step >>= next) Q :=
  of_gives (h.andThen fun _ ha => ha.elim)

theorem failAt (span : Span) (kind : SyntaxErrorKind) :
    Passes c (Parse.failAt span kind : Parse α) P := of_gives (.failAt _ _)

theorem fail (kind : SyntaxErrorKind) : Passes c (Parse.fail kind : Parse α) P := of_gives (.fail _)

theorem unexpected (wanted : String) : Passes c (Parse.unexpected wanted : Parse α) P :=
  of_gives (.unexpected _)

theorem failExpected (wanted : String) : Passes c (Parse.failExpected wanted : Parse α) P :=
  of_gives gives_failExpected

theorem still {step : Parse α} {f : ParseState → α}
    (h : ∀ s, runOn step c s = (.ok (f s), s)) : Passes c step fun l _ l' => l' = l := by
  intro s a s' hrun _
  rw [h s] at hrun
  obtain ⟨-, rfl⟩ := Prod.mk.inj hrun
  exact ⟨.refl _, fun _ l _ hl => ⟨l, hl, .refl l, rfl⟩⟩

theorem after {step : Parse α} {next : α → Parse β} {a : α}
    (hrun : ∀ s, runOn step c s = (.ok a, s)) (hnext : Passes c (next a) Q) :
    Passes c (step >>= next) Q := by
  intro s b s' h hregex
  rw [runOn_bind_of_ok (hrun s)] at h
  exact hnext s b s' h hregex

theorem context : Passes c Parse.context fun l _ l' => l' = l := still (f := fun _ => c) fun _ => rfl

theorem previous : Passes c Parse.previous fun l _ l' => l' = l := still fun _ => rfl

theorem spanFrom (start : Nat) : Passes c (Parse.spanFrom start) fun l _ l' => l' = l :=
  still fun _ => rfl

end Passes

/-! ## The next token -/

theorem current_of_placed? {p : Option PlacedToken} (h : runOn placed? c s = (.ok p, s')) :
    s'.current = p := by
  unfold placed? at h
  rw [runOn_bind_of_ok runOn_get] at h
  cases hcurrent : s.current with
  | some t =>
    rw [hcurrent] at h
    obtain ⟨hp, rfl⟩ := Prod.mk.inj h
    rw [hcurrent, Except.ok.inj hp]
  | none =>
    rw [hcurrent] at h
    dsimp only at h
    cases hfollowing : s.following with
    | some t =>
      rw [hfollowing] at h
      obtain ⟨hp, rfl⟩ := Prod.mk.inj h
      exact Except.ok.inj hp
    | none =>
      rw [hfollowing] at h
      obtain ⟨hp, rfl⟩ := Prod.mk.inj h
      exact Except.ok.inj hp

namespace Passes

variable (hc : c.Plain)

include hc

theorem placed? : Passes c Parse.placed? fun l p l' => p = (l.next c).1 ∧ Looked c l l' ∧
    (p = none → l' = (l.next c).2) := by
  intro s p s' hrun hregex
  unfold Parse.placed? at hrun
  rw [runOn_bind_of_ok runOn_get] at hrun
  cases hcurrent : s.current with
  | some t =>
    rw [hcurrent] at hrun
    obtain ⟨hp, rfl⟩ := Prod.mk.inj hrun
    obtain rfl := Except.ok.inj hp
    refine ⟨.refl _, fun _ l _ hbefore => ⟨l, hbefore, .refl l, ?_, .refl l, fun h => by cases h⟩⟩
    cases hbefore with
    | fresh h => rw [hcurrent] at h; cases h
    | waiting h => rw [hcurrent] at h; cases h
    | seen h _ hc₀ hnext => rw [← hc₀, hnext, ← hcurrent, h]
    | both h _ hc₀ hnext => rw [← hc₀, hnext, ← hcurrent, h]
  | none =>
    rw [hcurrent] at hrun
    dsimp only at hrun
    cases hfollowing : s.following with
    | some t =>
      rw [hfollowing] at hrun
      obtain ⟨hp, rfl⟩ := Prod.mk.inj hrun
      obtain rfl := Except.ok.inj hp
      refine ⟨.refl _, fun _ l _ hbefore => ?_⟩
      cases hbefore with
      | fresh _ h => rw [hfollowing] at h; cases h
      | seen h => rw [hcurrent] at h; cases h
      | both h => rw [hcurrent] at h; cases h
      | waiting _ h hc₀ hnext =>
        obtain rfl := Option.some.inj (hfollowing.symm.trans h)
        exact ⟨l, .seen rfl rfl hc₀ hnext, .refl l, by rw [← hc₀, hnext], .refl l,
          fun h => by cases h⟩
    | none =>
      rw [hfollowing] at hrun
      obtain ⟨hp, rfl⟩ := Prod.mk.inj hrun
      obtain rfl := Except.ok.inj hp
      refine ⟨(Lexer.next_onward hc hregex rfl).1, fun _ l hl hbefore => ?_⟩
      cases hbefore with
      | seen h => rw [hcurrent] at h; cases h
      | waiting _ h => rw [hfollowing] at h; cases h
      | both h => rw [hcurrent] at h; cases h
      | fresh _ _ hlexer =>
        subst hlexer
        cases hnext : s.lexer.next c with
        | mk q after =>
          have hon := (Lexer.next_onward hc hregex hnext).1
          cases q with
          | some t =>
            exact ⟨_, .seen rfl rfl rfl hnext, .refl _, by rw [hnext], .refl _,
              fun h => by cases h⟩
          | none =>
            refine ⟨after, .fresh rfl rfl rfl, hon, by rw [hnext], ⟨hon, fun h => ?_⟩,
              fun _ => by rw [hnext]⟩
            rw [hnext] at h
            cases h

theorem token? : Passes c Parse.token? fun l t l' =>
    t = (l.next c).1.map (·.token) ∧ Looked c l l' :=
  (placed? hc).andThen fun p => (pure _).mono fun l₁ t l₂ _ ht l _ hp => by
    obtain ⟨rfl, rfl⟩ := ht
    exact ⟨by rw [hp.1], hp.2.1⟩

theorem look (f : Option Token → β) : Passes c (do return f (← Parse.token?)) fun l b l' =>
    b = f ((l.next c).1.map (·.token)) ∧ Looked c l l' :=
  (token? hc).andThen fun t => (pure _).mono fun l₁ b l₂ _ hb l _ ht => by
    obtain ⟨rfl, rfl⟩ := hb
    exact ⟨by rw [ht.1], ht.2⟩

theorem advance : Passes c Parse.advance fun l _ l' => l' = (l.next c).2 := by
  intro s a s' hrun hregex
  obtain ⟨p, s₁, hplaced, hrest⟩ := of_runOn_bind_ok hrun
  obtain ⟨hon, hpass⟩ := placed? hc s p s₁ hplaced hregex
  have hcurrent := current_of_placed? hplaced
  cases p with
  | none =>
    obtain ⟨-, rfl⟩ := Prod.mk.inj hrest
    refine ⟨hon, fun herrors l hl hbefore => ?_⟩
    obtain ⟨l', hbefore', hon', -, -, hl'⟩ := hpass herrors l hl hbefore
    exact ⟨l', hbefore', hon', hl' rfl⟩
  | some t =>
    obtain ⟨-, rfl⟩ := Prod.mk.inj hrest
    refine ⟨hon, fun herrors l hl hbefore => ?_⟩
    obtain ⟨l₁, hbefore₁, -, ht, hlooked, -⟩ := hpass herrors l hl hbefore
    obtain rfl := hlooked.stays (by rw [← ht]; rfl)
    cases hbefore₁ with
    | fresh h => rw [hcurrent] at h; cases h
    | waiting h => rw [hcurrent] at h; cases h
    | seen _ hfollowing hc₀ hnext =>
      rw [hc₀] at hnext
      exact ⟨_, .fresh rfl hfollowing rfl, (Lexer.next_onward hc hl hnext).1,
        (congrArg Prod.snd hnext).symm⟩
    | both _ hfollowing hc₀ hnext hc₁ hnext' =>
      rw [hc₀] at hnext
      exact ⟨_, .waiting rfl hfollowing hc₁ hnext', (Lexer.next_onward hc hl hnext).1,
        (congrArg Prod.snd hnext).symm⟩

theorem at? (m : Mark) : Passes c (Parse.at? m) fun l b l' =>
    b = isMark m ((l.next c).1.map (·.token)) ∧ Looked c l l' := look hc (isMark m)

theorem atWord : Passes c Parse.atWord fun l b l' =>
    b = isWord ((l.next c).1.map (·.token)) ∧ Looked c l l' := look hc isWord

theorem atName (n : String) : Moves c (Parse.atName n) := (look hc (isName n)).moves

theorem atEnd : Passes c Parse.atEnd fun l _ l' => Looked c l l' :=
  (look hc Option.isNone).mono fun _ _ _ _ h => h.2

theorem here : Passes c Parse.here fun l _ l' => Looked c l l' :=
  (placed? hc).andThen fun p => by
    cases p with
    | some t => exact (pure _).mono fun _ _ _ _ hb _ _ hp => hb.2 ▸ hp.2.1
    | none => exact (still fun _ => rfl).mono fun _ _ _ _ hb _ _ hp => hb ▸ hp.2.1

theorem lineBreak : Moves c Parse.lineBreak := (placed? hc).moves.bind fun _ => (pure _).moves

theorem accept (m : Mark) : Passes c (Parse.accept m) fun l b l' =>
    b = true → (l.next c).1.isSome = true ∧ l' = (l.next c).2 :=
  (at? hc m).andThen fun b => by
    refine ite (fun hb => ?_) fun _ => (pure _).mono fun _ _ _ _ hb _ _ _ h => ?_
    · refine (advance hc).andThen fun _ => (pure _).mono fun l₂ _ l₃ _ h l₁ _ hl₁ l _ hl _ => ?_
      obtain ⟨hmark, hlooked⟩ := hl
      have hsome : (l.next c).1.isSome = true := by
        cases hnext : (l.next c).1 with
        | some p => rfl
        | none =>
          rw [hnext, hb] at hmark
          cases hmark
      obtain rfl := hlooked.stays hsome
      exact ⟨hsome, h.2.trans hl₁⟩
    · rw [hb.1] at h
      cases h

theorem acceptName (n : String) : Moves c (Parse.acceptName n) :=
  (atName hc n).bind fun _ => ite (fun _ => (advance hc).moves.bind fun _ => (pure _).moves)
    fun _ => (pure _).moves

theorem expect (m : Mark) : Passes c (Parse.expect m) fun l _ l' => l' = (l.next c).2 :=
  (accept hc m).andThen fun b => by
    cases b with
    | true => exact (pure _).mono fun _ _ _ _ h _ _ hl => h.2.trans (hl rfl).2
    | false => exact failExpected _

theorem expectName (n : String) : Moves c (Parse.expectName n) :=
  (acceptName hc n).bind fun _ => ite (fun _ => failExpected _) fun _ => (pure _).moves

theorem someToken : Passes c Parse.someToken fun l t l' => ∃ p l₁, l.next c = (some p, l₁) ∧
    p.token = t ∧ l' = l :=
  (token? hc).andThen fun t => by
    split
    · refine of_gives ((Gives.bind fun _ => .throw _))
    · refine (pure _).mono fun l₁ t' l₂ _ h l _ hl => ?_
      obtain ⟨rfl, rfl⟩ := h
      obtain ⟨ht, hlooked⟩ := hl
      obtain ⟨p, hp, rfl⟩ := Option.map_eq_some_iff.mp ht.symm
      exact ⟨p, _, Prod.ext hp rfl, rfl, hlooked.stays (by rw [hp]; rfl)⟩
    · exact of_gives .failAtEnd

/-! ## Errors that are noted -/

theorem addError (e : SyntaxError) : Passes c (Parse.addError e) fun _ _ _ => False := by
  intro s a s' hrun _
  have hrun' : runOn (Parse.addError e) c s =
      (.ok (), { s with lexer := s.lexer.addError e }) := by
    unfold Parse.addError
    rw [runOn_bind_of_ok runOn_context, hc.trial]
    rfl
  rw [hrun'] at hrun
  obtain ⟨-, rfl⟩ := Prod.mk.inj hrun
  refine ⟨.addError _ _, fun herrors => ?_⟩
  exact absurd herrors (List.append_ne_nil_of_right_ne_nil _ (List.cons_ne_nil _ _))

theorem broken? : Moves c Parse.broken? :=
  (token? hc).moves.bind fun t => by
    split <;> exact (pure _).moves

theorem note (span : Span) (kind : SyntaxErrorKind) : Moves c (Parse.note span kind) := by
  unfold Parse.note Parse.keep
  refine context.moves.bind fun _ => ite (fun _ => (pure _).moves) fun _ => ?_
  refine (broken? hc).bind fun broken => ?_
  cases broken with
  | none => exact (addError hc _).moves
  | some e =>
    exact (advance hc).moves.bind fun _ => (addError hc _).moves.bind fun _ => (addError hc _).moves

theorem noteInModule (span : Span) (kind : SyntaxErrorKind) :
    Moves c (Parse.noteInModule span kind) :=
  context.moves.bind fun _ => ite (fun _ => note hc _ _) fun _ => (pure _).moves

/-! ## Names -/

theorem nameWord (allowYield allowAwait : Bool) : Moves c (Parse.nameWord allowYield allowAwait) := by
  unfold Parse.nameWord
  refine context.moves.bind fun _ => (someToken hc).moves.bind fun t => ?_
  refine ite (fun _ => stops (.fail _)) fun _ => ?_
  refine (advance hc).moves.bind fun _ => previous.moves.bind fun span => ?_
  split
  · have hname (n : Text) (inField : Bool) : Moves c (do
        if n == text "arguments" && inField then Parse.note span .argumentsInField
        return (n, span)) := perhaps (note hc _ _) fun _ => (pure _).moves
    refine ite (fun _ => (note hc _ _).bind fun _ => hname _ _) fun _ => ?_
    exact perhaps (noteInModule hc _ _) fun _ => hname _ _
  · refine perhaps (noteInModule hc _ _) fun _ => ?_
    dsimp only
    split
    · refine ite (fun _ => (pure _).moves) fun _ => ite (fun _ => stops (.failAt _ _)) fun _ => ?_
      refine ite (fun _ => stops (.failAt _ _)) fun _ => ?_
      exact ite (fun _ => (pure _).moves) fun _ => failAt _ _
    · exact ite (fun _ => (pure _).moves) fun _ => failAt _ _
    · exact (pure _).moves
    · exact ite (fun _ => (pure _).moves) fun _ => failAt _ _
    · exact failAt _ _
  · exact failAt _ _

theorem declaredPlainName : Moves c (Parse.declaredPlainName false) := by
  have hword : Moves c (declaredWord false) := by
    refine context.moves.bind fun _ => (nameWord hc _ _).bind fun (n, span) => ?_
    refine perhaps (noteInModule hc _ _) fun _ => perhaps (note hc _ _) fun _ => ?_
    exact perhaps (note hc _ _) fun _ => (pure _).moves
  exact hword.bind fun _ => (pure _).moves

end Passes

/-! ## Repetition -/

/-- What holds where a repetition starts and is kept by its step holds where it ends, and gives what
holds of the result. -/
theorem Passes.iterate {I : Lexer → σ → Lexer → Prop} {R : Lexer → ρ → Lexer → Prop} {start : σ}
    {step : σ → Parse (σ ⊕ ρ)} (hstart : ∀ l, I l start l)
    (hstep : ∀ x, Passes c (step x) fun l r l' =>
      ∀ l₀, I l₀ x l → Sum.elim (I l₀ · l') (R l₀ · l') r) :
    Passes c (Parse.iterate start step) R := by
  have hbound : ∀ s, runOn bound c s = (.ok (2 * (s.lexer.stop - s.lexer.origin) + 8), s) :=
    fun _ => rfl
  have hsteps : ∀ n x, Passes c (iterateUpTo step n x) fun l r l' => ∀ l₀, I l₀ x l → R l₀ r l' := by
    intro n
    induction n with
    | zero => exact fun _ => of_gives .failAtEnd
    | succ n ih =>
      intro x
      refine (hstep x).andThen fun r => ?_
      cases r with
      | inl y => exact (ih y).mono fun _ _ _ _ hy _ _ hx l₀ hI => hy l₀ (hx l₀ hI)
      | inr r =>
        refine (Passes.pure r).mono fun _ _ _ _ hr _ _ hx l₀ hI => ?_
        obtain ⟨rfl, rfl⟩ := hr
        exact hx l₀ hI
  refine (Passes.still hbound).andThen fun n => (hsteps n start).mono fun _ _ _ _ hr l _ hl => ?_
  exact hr l (hl ▸ hstart l)

end InlineTemplates.Script.Parse
