import InlineTemplates.Proofs.Lexing.Tokens
import InlineTemplates.Proofs.OperandRules

/-! # Steps on spelled tokens

Whether a parser has looked ahead or not, what it still has to take is a text. On a text that starts
with known tokens each step gives what they say, and leaves what follows the tokens that it took. -/

namespace InlineTemplates.Script.Parse

variable {α β : Type} {P : α → Prop} {Q : β → Prop} {C : Context → Prop} {c : Context} {n : Nat}
  {errors : List SyntaxError} {s s₁ : ParseState} {x y z : Text} {t t' : Token}

/-! ## What a state has to take -/

/-- What the state has to take is what the lexer has to read. One token or two may be read already,
each in one of the contexts. -/
inductive Before (C : Context → Prop) (l : Lexer) (s : ParseState) : Prop
  | fresh (hcurrent : s.current = none) (hfollowing : s.following = none) (hlexer : s.lexer = l)
  | seen {c₀ : Context} {t : PlacedToken} (hcurrent : s.current = some t)
      (hfollowing : s.following = none) (hc : C c₀) (hnext : l.next c₀ = (some t, s.lexer))
  | waiting {c₀ : Context} {t : PlacedToken} (hcurrent : s.current = none)
      (hfollowing : s.following = some t) (hc : C c₀) (hnext : l.next c₀ = (some t, s.lexer))
  | both {c₀ c₁ : Context} {t t' : PlacedToken} {l' : Lexer} (hcurrent : s.current = some t)
      (hfollowing : s.following = some t') (hc : C c₀) (hnext : l.next c₀ = (some t, l'))
      (hc' : C c₁) (hnext' : l'.next c₁ = (some t', s.lexer))

/-- In a source of `n` characters of which these errors were noted, the state is to take the text.
Blanks and comments at the end of the source may be passed already. -/
def Faces (C : Context → Prop) (x : Text) (n : Nat) (errors : List SyntaxError) (s : ParseState) :
    Prop :=
  s.lexer.stop - s.lexer.origin = n ∧ x.length ≤ n ∧ ∃ (l : Lexer) (left : Text),
    l.Faces left n errors ∧ Before C l s ∧ (left = x ∨ LastGap x ∧ left = [])

/-- On the text `x` the step gives something with the property, and leaves the text `y`. -/
def Takes (C : Context → Prop) (c : Context) (x y : Text) (step : Parse α) (P : α → Prop) : Prop :=
  C c → ∀ n errors s, Faces C x n errors s →
    ∃ a s', runOn step c s = (.ok a, s') ∧ P a ∧ Faces C y n errors s'

namespace Takes

theorem pure {a : α} (h : P a) : Takes C c x x (pure a) P := fun _ _ _ s hs => ⟨a, s, rfl, h, hs⟩

theorem bind {step : Parse α} {next : α → Parse β} (h : Takes C c x y step P)
    (hnext : ∀ a, P a → Takes C c y z (next a) Q) : Takes C c x z (step >>= next) Q := by
  intro hc n errors s hs
  obtain ⟨a, s₁, hstep, ha, hs₁⟩ := h hc n errors s hs
  obtain ⟨b, s₂, hrest, hb, hs₂⟩ := hnext a ha hc n errors s₁ hs₁
  exact ⟨b, s₂, runOn_then hstep hrest, hb, hs₂⟩

theorem andThen {step : Parse α} {next : α → Parse β} {a : α} (h : Takes C c x y step (· = a))
    (hnext : Takes C c y z (next a) Q) : Takes C c x z (step >>= next) Q :=
  h.bind fun _ ha => ha ▸ hnext

theorem before {step : Parse α} {next : α → Parse β} (h : Takes C c x y step P)
    (hnext : ∀ a, Takes C c y z (next a) Q) : Takes C c x z (step >>= next) Q :=
  h.bind fun a _ => hnext a

theorem mono {R : α → Prop} {step : Parse α} (h : Takes C c x y step P) (hR : ∀ a, P a → R a) :
    Takes C c x y step R := by
  intro hc n errors s hs
  obtain ⟨a, s₁, hstep, ha, hs₁⟩ := h hc n errors s hs
  exact ⟨a, s₁, hstep, hR a ha, hs₁⟩

theorem taken {step other : Parse α} (h : Takes C c x y step P) :
    Takes C c x y (if true = true then step else other) P := h

theorem otherwise {step other : Parse α} (h : Takes C c x y other P) :
    Takes C c x y (if false = true then step else other) P := h

theorem within {change : Context → Context} {step : Parse α} (hchange : C c → C (change c))
    (h : Takes C (change c) x y step P) : Takes C c x y (within change step) P := by
  intro hc n errors s hs
  rw [runOn_within]
  exact h (hchange hc) n errors s hs

theorem context : Takes C c x x Parse.context (· = c) := fun _ _ _ s hs => ⟨c, s, rfl, rfl, hs⟩

theorem get : Takes C c x x MonadState.get fun _ => True := fun _ _ _ s hs => ⟨s, s, rfl, trivial, hs⟩

theorem typed : Takes C c x x Parse.typed (· = c.dialect.types) := fun _ _ _ s hs =>
  ⟨c.dialect.types, s, rfl, rfl, hs⟩

theorem previous : Takes C c x x Parse.previous fun _ => True := fun _ _ _ s hs =>
  ⟨s.previous, s, rfl, trivial, hs⟩

theorem lastEnd : Takes C c x x Parse.lastEnd fun _ => True := fun _ _ _ s hs =>
  ⟨s.previous.hi, s, rfl, trivial, hs⟩

theorem spanFrom (start : Nat) : Takes C c x x (Parse.spanFrom start) fun _ => True :=
  lastEnd.before fun _ => pure trivial

end Takes

/-! ## Conditions -/

namespace Takes

variable {a b : Parse Bool} {R : Bool → Prop}

theorem and_of_true (ha : Takes C c x y a (· = true)) (hb : Takes C c y z b R) :
    Takes C c x z (a <&&> b) R := ha.andThen hb

theorem and_of_false (ha : Takes C c x y a (· = false)) : Takes C c x y (a <&&> b) (· = false) :=
  ha.andThen (pure rfl)

theorem or_of_true (ha : Takes C c x y a (· = true)) : Takes C c x y (a <||> b) (· = true) :=
  ha.andThen (pure rfl)

theorem or_of_false (ha : Takes C c x y a (· = false)) (hb : Takes C c y z b R) :
    Takes C c x z (a <||> b) R := ha.andThen hb

theorem not {v : Bool} (ha : Takes C c x y a (· = v)) : Takes C c x y (notM a) (· = !v) :=
  ha.andThen (pure rfl)

end Takes

/-! ## One token ahead -/

theorem Faces.of_leads (hs : Faces C x n errors s) (h : Leads x t y) :
    ∃ l : Lexer, l.Faces x n errors ∧ Before C l s := by
  obtain ⟨-, -, l, left, hl, hbefore, rfl | ⟨hgap, -⟩⟩ := hs
  · exact ⟨l, hl, hbefore⟩
  · exact absurd hgap h.not_lastGap

theorem faces_of_lexer {l : Lexer} (hl : l.Faces x n errors) (hbefore : Before C l s)
    (hsize : s.lexer.stop - s.lexer.origin = n) : Faces C x n errors s :=
  ⟨hsize, hl.fits, l, x, hl, hbefore, .inl rfl⟩

theorem Faces.placed (hc : C c) (hs : Faces C x n errors s) (h : Leads x t y) :
    ∃ p s', p.token = t ∧ runOn placed? c s = (.ok (some p), s') ∧ s'.current = some p ∧
      Faces C x n errors s' ∧
      ∀ previous, Faces C y n errors { s' with current := none, previous := previous } := by
  obtain ⟨l, hl, hbefore⟩ := hs.of_leads h
  have hsize := hs.1
  have hreads (c : Context) := Lexer.next_of_leads (c := c) hl h
  cases hbefore with
  | fresh hcurrent hfollowing hlexer =>
    subst hlexer
    obtain ⟨span, lineBreak, l', hnext, hl'⟩ := hreads c
    exact ⟨_, _, rfl, runOn_placed?_of_next hcurrent hfollowing hnext, rfl,
      faces_of_lexer hl (.seen rfl hfollowing hc hnext) hl'.size,
      fun _ => faces_of_lexer hl' (.fresh rfl hfollowing rfl) hl'.size⟩
  | @seen c₀ p hcurrent hfollowing hc₀ hseen =>
    obtain ⟨span, lineBreak, l', hnext, hl'⟩ := hreads c₀
    obtain ⟨hp, hlexer⟩ := Prod.mk.inj (hnext.symm.trans hseen)
    obtain rfl := Option.some.inj hp
    exact ⟨_, _, rfl, runOn_placed? hcurrent, hcurrent,
      faces_of_lexer hl (.seen hcurrent hfollowing hc₀ hseen) hsize,
      fun _ => faces_of_lexer hl' (.fresh rfl hfollowing hlexer.symm) hsize⟩
  | @waiting c₀ p hcurrent hfollowing hc₀ hwaiting =>
    obtain ⟨span, lineBreak, l', hnext, hl'⟩ := hreads c₀
    obtain ⟨hp, hlexer⟩ := Prod.mk.inj (hnext.symm.trans hwaiting)
    obtain rfl := Option.some.inj hp
    have hplaced : runOn placed? c s = (.ok (some ⟨t, span, lineBreak⟩),
        { s with current := some ⟨t, span, lineBreak⟩, following := none }) := by
      unfold placed?
      rw [runOn_bind_of_ok runOn_get, hcurrent]
      dsimp only
      rw [hfollowing]
      rfl
    exact ⟨_, _, rfl, hplaced, rfl, faces_of_lexer hl (.seen rfl rfl hc₀ hwaiting) hsize,
      fun _ => faces_of_lexer hl' (.fresh rfl rfl hlexer.symm) hsize⟩
  | @both c₀ c₁ p p' l₁ hcurrent hfollowing hc₀ hseen hc₁ hwaiting =>
    obtain ⟨span, lineBreak, l', hnext, hl'⟩ := hreads c₀
    obtain ⟨hp, hlexer⟩ := Prod.mk.inj (hnext.symm.trans hseen)
    obtain rfl := Option.some.inj hp
    subst hlexer
    exact ⟨_, _, rfl, runOn_placed? hcurrent, hcurrent,
      faces_of_lexer hl (.both hcurrent hfollowing hc₀ hseen hc₁ hwaiting) hsize,
      fun _ => faces_of_lexer hl' (.waiting rfl hfollowing hc₁ hwaiting) hsize⟩

theorem Faces.of_lastGap (hs : Faces C x n errors s) (h : LastGap x) :
    ∃ left, s.lexer.Faces left n errors ∧ LastGap left ∧ (left = x ∨ left = []) ∧
      s.current = none ∧ s.following = none := by
  obtain ⟨-, -, l, left, hl, hbefore, hleft⟩ := hs
  have hgap : LastGap left ∧ (left = x ∨ left = []) := by
    rcases hleft with rfl | ⟨-, rfl⟩
    · exact ⟨h, .inl rfl⟩
    · exact ⟨Gap.nil.last, .inr rfl⟩
  have hnot {c : Context} {p : PlacedToken} {l' : Lexer} (hnext : l.next c = (some p, l')) : False := by
    obtain ⟨l₁, hend, -⟩ := Lexer.next_of_lastGap (c := c) hl hgap.1
    cases hend.symm.trans hnext
  cases hbefore with
  | fresh hcurrent hfollowing hlexer =>
    subst hlexer
    exact ⟨left, hl, hgap.1, hgap.2, hcurrent, hfollowing⟩
  | seen _ _ _ hseen => exact (hnot hseen).elim
  | waiting _ _ _ hwaiting => exact (hnot hwaiting).elim
  | both _ _ _ hseen => exact (hnot hseen).elim

theorem Faces.at_end (hs : Faces C [] n errors s) :
    s.lexer.rest = [] ∧ s.lexer.record.errors = errors := by
  obtain ⟨left, hl, -, hleft, -⟩ := hs.of_lastGap Gap.nil.last
  obtain rfl : left = [] := hleft.elim id id
  exact ⟨hl.rest, hl.errors⟩

theorem Faces.ended (hs : Faces C x n errors s) (h : LastGap x) :
    ∃ s', runOn placed? c s = (.ok none, s') ∧ ∀ y, y = x ∨ y = [] → Faces C y n errors s' := by
  have hfits := hs.2.1
  obtain ⟨left, hl, hgap, -, hcurrent, hfollowing⟩ := hs.of_lastGap h
  obtain ⟨l', hnext, hl'⟩ := Lexer.next_of_lastGap (c := c) hl hgap
  have hplaced : runOn placed? c s = (.ok none, { s with current := none, lexer := l' }) := by
    unfold placed?
    rw [runOn_bind_of_ok runOn_get, hcurrent]
    dsimp only
    rw [hfollowing]
    dsimp only
    rw [runOn_bind_of_ok runOn_context, hnext]
    rfl
  refine ⟨_, hplaced, fun y hy => ⟨hl'.size, ?_, l', [], hl', .fresh rfl hfollowing rfl, ?_⟩⟩
  · rcases hy with rfl | rfl
    · exact hfits
    · exact Nat.zero_le n
  · rcases hy with rfl | rfl
    · exact .inr ⟨h, rfl⟩
    · exact .inl rfl

/-! ## What comes next -/

/-- The text has this token next, or ends. -/
def Shows (x : Text) : Option Token → Prop
  | some t => ∃ y, Leads x t y
  | none => LastGap x

namespace Shows

variable {t? : Option Token}

theorem of_leads (h : Leads x t y) : Shows x (some t) := ⟨y, h⟩

theorem placed? (h : Shows x t?) :
    Takes C c x x Parse.placed? fun p => p.map (·.token) = t? := by
  intro hc n errors s hs
  cases t? with
  | some t =>
    obtain ⟨y, h⟩ := h
    obtain ⟨p, s', hp, hrun, -, hs', -⟩ := hs.placed hc h
    exact ⟨_, s', hrun, congrArg some hp, hs'⟩
  | none =>
    obtain ⟨s', hrun, hs'⟩ := hs.ended h
    exact ⟨none, s', hrun, rfl, hs' _ (.inl rfl)⟩

theorem token? (h : Shows x t?) : Takes C c x x Parse.token? (· = t?) :=
  h.placed?.bind fun _ hp => .pure hp

theorem at? (h : Shows x t?) (m : Mark) : Takes C c x x (Parse.at? m) (· = isMark m t?) :=
  h.token?.andThen (.pure rfl)

theorem atKeyword (h : Shows x t?) (k : Keyword) :
    Takes C c x x (Parse.atKeyword k) (· = isKeyword k t?) :=
  h.token?.andThen (.pure rfl)

theorem atName (h : Shows x t?) (name : String) :
    Takes C c x x (Parse.atName name) (· = isName name t?) :=
  h.token?.andThen (.pure rfl)

theorem atWord (h : Shows x t?) : Takes C c x x Parse.atWord (· = isWord t?) :=
  h.token?.andThen (.pure rfl)

theorem atFreeWord (h : Shows x t?) : Takes C c x x Parse.atFreeWord (· = isFreeWord c t?) :=
  Takes.context.andThen (h.token?.andThen (.pure rfl))

theorem atEnd (h : Shows x t?) : Takes C c x x Parse.atEnd (· = t?.isNone) :=
  h.token?.andThen (.pure rfl)

theorem here (h : Shows x t?) : Takes C c x x Parse.here fun _ => True :=
  h.placed?.bind fun p _ => by
    cases p with
    | some p => exact .pure trivial
    | none => exact Takes.get.before fun _ => .pure trivial

theorem lineBreak (h : Shows x t?) : Takes C c x x Parse.lineBreak fun _ => True :=
  h.placed?.bind fun _ _ => .pure trivial

theorem accept_other {m : Mark} (h : Shows x t?) (ht : isMark m t? = false) :
    Takes C c x x (Parse.accept m) (· = false) :=
  (h.at? m).andThen (by rw [ht]; exact .otherwise (.pure rfl))

theorem acceptName_other {name : String} (h : Shows x t?) (ht : isName name t? = false) :
    Takes C c x x (Parse.acceptName name) (· = false) :=
  (h.atName name).andThen (by rw [ht]; exact .otherwise (.pure rfl))

theorem acceptKeyword_other {k : Keyword} (h : Shows x t?) (ht : isKeyword k t? = false) :
    Takes C c x x (Parse.acceptKeyword k) (· = false) :=
  (h.atKeyword k).andThen (by rw [ht]; exact .otherwise (.pure rfl))

end Shows

/-! ## A token that is known -/

namespace Takes

theorem advance (h : Leads x t y) : Takes C c x y Parse.advance fun _ => True := by
  intro hc n errors s hs
  obtain ⟨p, s', -, hrun, -, -, hs'⟩ := hs.placed hc h
  exact ⟨_, _, runOn_then hrun rfl, trivial, hs' _⟩

theorem token? (h : Leads x t y) : Takes C c x x Parse.token? (· = some t) := Shows.token? (.of_leads h)

theorem at? (h : Leads x t y) (m : Mark) : Takes C c x x (Parse.at? m) (· = isMark m (some t)) :=
  Shows.at? (.of_leads h) m

theorem atKeyword (h : Leads x t y) (k : Keyword) :
    Takes C c x x (Parse.atKeyword k) (· = isKeyword k (some t)) := Shows.atKeyword (.of_leads h) k

theorem atName (h : Leads x t y) (name : String) :
    Takes C c x x (Parse.atName name) (· = isName name (some t)) := Shows.atName (.of_leads h) name

theorem atWord (h : Leads x t y) : Takes C c x x Parse.atWord (· = isWord (some t)) :=
  Shows.atWord (.of_leads h)

theorem atFreeWord (h : Leads x t y) :
    Takes C c x x Parse.atFreeWord (· = isFreeWord c (some t)) := Shows.atFreeWord (.of_leads h)

theorem atEnd (h : Leads x t y) : Takes C c x x Parse.atEnd (· = false) :=
  Shows.atEnd (.of_leads h)

theorem here (h : Leads x t y) : Takes C c x x Parse.here fun _ => True := Shows.here (.of_leads h)

theorem lineBreak (h : Leads x t y) : Takes C c x x Parse.lineBreak fun _ => True :=
  Shows.lineBreak (.of_leads h)

theorem accept {m : Mark} (h : Leads x (.mark m) y) : Takes C c x y (Parse.accept m) (· = true) := by
  have hat : Takes C c x x (Parse.at? m) (· = true) := (at? h m).mono fun b hb => by simp [hb, isMark]
  exact hat.andThen (.taken ((advance h).before fun _ => .pure rfl))

theorem accept_other {m : Mark} (h : Leads x t y) (ht : isMark m (some t) = false) :
    Takes C c x x (Parse.accept m) (· = false) := Shows.accept_other (.of_leads h) ht

theorem expect {m : Mark} (h : Leads x (.mark m) y) : Takes C c x y (Parse.expect m) fun _ => True :=
  (accept h).andThen (.otherwise (.pure trivial))

theorem acceptName {name : String} (h : Leads x t y) (ht : isName name (some t) = true) :
    Takes C c x y (Parse.acceptName name) (· = true) :=
  (atName h name).andThen (by
    rw [ht]
    exact .taken ((advance h).before fun _ => .pure rfl))

theorem acceptName_other {name : String} (h : Leads x t y) (ht : isName name (some t) = false) :
    Takes C c x x (Parse.acceptName name) (· = false) := Shows.acceptName_other (.of_leads h) ht

theorem acceptKeyword_other {k : Keyword} (h : Leads x t y) (ht : isKeyword k (some t) = false) :
    Takes C c x x (Parse.acceptKeyword k) (· = false) := Shows.acceptKeyword_other (.of_leads h) ht

theorem expectName {name : String} (h : Leads x t y) (ht : isName name (some t) = true) :
    Takes C c x y (Parse.expectName name) fun _ => True :=
  (acceptName h ht).andThen (.otherwise (.pure trivial))

end Takes

/-! ## Two tokens ahead -/

theorem Takes.next? (h : Leads x t y) (h' : Leads y t' z) :
    Takes C c x x Parse.next? (· = some t') := by
  intro hc n errors s hs
  obtain ⟨p, s₁, -, hplaced, hcurrent, hs₁, -⟩ := hs.placed hc h
  obtain ⟨l, hl, hbefore⟩ := hs₁.of_leads h
  have hreads (c : Context) := Lexer.next_of_leads (c := c) hl h
  cases hbefore with
  | fresh hnone => rw [hcurrent] at hnone; cases hnone
  | waiting hnone => rw [hcurrent] at hnone; cases hnone
  | @seen c₀ p hcurrent hfollowing hc₀ hseen =>
    obtain ⟨span, lineBreak, l₁, hnext, hl₁⟩ := hreads c₀
    obtain ⟨span', lineBreak', l₂, hnext', hl₂⟩ := Lexer.next_of_leads (c := c) hl₁ h'
    obtain ⟨-, rfl⟩ := Prod.mk.inj (hnext.symm.trans hseen)
    have hlook : runOn nextPlaced? c s = (.ok (some ⟨t', span', lineBreak'⟩),
        { s₁ with following := some ⟨t', span', lineBreak'⟩, lexer := l₂ }) := by
      unfold nextPlaced?
      rw [runOn_bind_of_ok hplaced, runOn_bind_of_ok runOn_get, hfollowing]
      dsimp only
      rw [runOn_bind_of_ok runOn_context, hnext']
      rfl
    exact ⟨_, _, runOn_then hlook rfl, rfl,
      faces_of_lexer hl (.both hcurrent rfl hc₀ hseen hc hnext') hl₂.size⟩
  | @both c₀ c₁ p p' l' hcurrent hfollowing hc₀ hseen hc₁ hwaiting =>
    obtain ⟨span, lineBreak, l₁, hnext, hl₁⟩ := hreads c₀
    obtain ⟨span', lineBreak', l₂, hnext', hl₂⟩ := Lexer.next_of_leads (c := c₁) hl₁ h'
    obtain ⟨-, rfl⟩ := Prod.mk.inj (hnext.symm.trans hseen)
    obtain ⟨hp, -⟩ := Prod.mk.inj (hnext'.symm.trans hwaiting)
    obtain rfl := Option.some.inj hp
    have hlook : runOn nextPlaced? c s = (.ok (some ⟨t', span', lineBreak'⟩), s₁) := by
      unfold nextPlaced?
      rw [runOn_bind_of_ok hplaced, runOn_bind_of_ok runOn_get, hfollowing]
      rfl
    exact ⟨_, _, runOn_then hlook rfl, rfl, hs₁⟩

theorem Takes.nextIs (h : Leads x t y) (h' : Leads y t' z) (p : Option Token → Bool) :
    Takes C c x x (Parse.nextIs p) (· = p (some t')) :=
  (next? h h').andThen (.pure rfl)

/-! ## At the end -/

theorem Faces.next?_end {p : PlacedToken} (hs : Faces C x n errors s) (hcurrent : s.current = some p)
    (h : Leads x t y) (hy : LastGap y) :
    ∃ s', runOn next? c s = (.ok none, s') ∧ s'.current = some p := by
  obtain ⟨l, hl, hbefore⟩ := hs.of_leads h
  have hends {c₀ : Context} {q : PlacedToken} {l₁ : Lexer} (hseen : l.next c₀ = (some q, l₁))
      (c : Context) : ∃ l₂, l₁.next c = (none, l₂) := by
    obtain ⟨span, lineBreak, l', hnext, hl'⟩ := Lexer.next_of_leads (c := c₀) hl h
    obtain ⟨-, rfl⟩ := Prod.mk.inj (hnext.symm.trans hseen)
    obtain ⟨l₂, hend, -⟩ := Lexer.next_of_lastGap (c := c) hl' hy
    exact ⟨l₂, hend⟩
  cases hbefore with
  | fresh hnone => rw [hcurrent] at hnone; cases hnone
  | waiting hnone => rw [hcurrent] at hnone; cases hnone
  | seen _ hfollowing _ hseen =>
    obtain ⟨l₂, hend⟩ := hends hseen c
    have hlook : runOn nextPlaced? c s = (.ok none, { s with following := none, lexer := l₂ }) := by
      unfold nextPlaced?
      rw [runOn_bind_of_ok (runOn_placed? hcurrent), runOn_bind_of_ok runOn_get, hfollowing]
      dsimp only
      rw [runOn_bind_of_ok runOn_context, hend]
      rfl
    exact ⟨_, runOn_then hlook rfl, hcurrent⟩
  | @both _ c₁ _ _ _ _ _ _ hseen _ hwaiting =>
    obtain ⟨l₂, hend⟩ := hends hseen c₁
    cases hend.symm.trans hwaiting

theorem Faces.placed_last (hc : C c) (hs : Faces C x n errors s) (h : Leads x t []) :
    ∃ p s', p.token = t ∧ runOn placed? c s = (.ok (some p), s') ∧ s'.current = some p ∧
      p.span.hi = n + 1 ∧
      AtSourceEnd p.span errors { s' with current := none, previous := p.span } := by
  obtain ⟨p, s', hp, hrun, hcurrent, hs', -⟩ := hs.placed hc h
  obtain ⟨l, hl, hbefore⟩ := hs'.of_leads h
  cases hbefore with
  | fresh hnone => rw [hcurrent] at hnone; cases hnone
  | waiting hnone => rw [hcurrent] at hnone; cases hnone
  | @seen c₀ p' hcurrent' hfollowing _ hseen =>
    obtain rfl := Option.some.inj (hcurrent.symm.trans hcurrent')
    obtain ⟨span, lineBreak, l', hnext, hl'⟩ := Lexer.next_of_leads (c := c₀) hl h
    obtain ⟨-, hlexer⟩ := Prod.mk.inj (hnext.symm.trans hseen)
    rw [hlexer] at hl'
    refine ⟨p, s', hp, hrun, hcurrent, ?_, rfl, hfollowing, hl'.rest, hl'.regexFrom, rfl, hl'.errors⟩
    rw [Lexer.hi_of_next hseen]
    exact hl'.place
  | @both c₀ c₁ p' p'' l₁ _ _ _ hseen _ hwaiting =>
    obtain ⟨span, lineBreak, l', hnext, hl'⟩ := Lexer.next_of_leads (c := c₀) hl h
    obtain ⟨-, rfl⟩ := Prod.mk.inj (hnext.symm.trans hseen)
    obtain ⟨_, hend, -⟩ := Lexer.next_of_lastGap (c := c₁) hl' Gap.nil.last
    cases hend.symm.trans hwaiting

theorem runOn_expect_last {m : Mark} (hc : C c) (hs : Faces C x n errors s)
    (h : Leads x (.mark m) []) :
    ∃ lo s', runOn (expect m) c s = (.ok (), s') ∧ AtSourceEnd ⟨lo, n + 1⟩ errors s' := by
  obtain ⟨p, s₁, hp, hplaced, hcurrent, hhi, hend⟩ := hs.placed_last hc h
  have hat : runOn (at? m) c s = (.ok true, s₁) := by
    rw [runOn_at? hplaced, hp, isMark, beq_self_eq_true]
  have haccept : runOn (accept m) c s = (.ok true, { s₁ with current := none, previous := p.span }) :=
    runOn_then hat (runOn_then (runOn_advance hcurrent) rfl)
  refine ⟨p.span.lo, _, runOn_then haccept rfl, ?_⟩
  rw [← hhi]
  exact hend

namespace Takes

theorem placed?_end (h : LastGap x) : Takes C c x [] Parse.placed? (· = none) := by
  intro _ n errors s hs
  obtain ⟨s', hrun, hs'⟩ := hs.ended h
  exact ⟨none, s', hrun, rfl, hs' _ (.inr rfl)⟩

theorem token?_end (h : LastGap x) : Takes C c x [] Parse.token? (· = none) :=
  (placed?_end h).andThen (.pure rfl)

theorem lineBreak_end (h : LastGap x) : Takes C c x [] Parse.lineBreak (· = true) :=
  (placed?_end h).andThen (.pure rfl)

theorem at?_end (h : LastGap x) (m : Mark) : Takes C c x [] (Parse.at? m) (· = false) :=
  (token?_end h).andThen (.pure rfl)

theorem accept_end (h : LastGap x) (m : Mark) : Takes C c x [] (Parse.accept m) (· = false) :=
  (at?_end h m).andThen (.otherwise (.pure rfl))

end Takes

/-! ## Repetition -/

theorem Takes.iterate {σ ρ : Type} {step : σ → Parse (σ ⊕ ρ)} {start : σ} {R : ρ → Prop} {k : Nat}
    (hk : k ≤ x.length)
    (h : ∀ m, Takes C c x y (iterateUpTo step (m + k + 1) start) R) :
    Takes C c x y (Parse.iterate start step) R := by
  intro hc n errors s hs
  obtain ⟨hsize, hfits, -⟩ := id hs
  have hbound : runOn bound c s = (.ok (2 * n + 7 - k + k + 1), s) := by
    have hbound' : runOn bound c s = (.ok (2 * (s.lexer.stop - s.lexer.origin) + 8), s) := rfl
    rw [hbound', hsize]
    congr 2
    omega
  obtain ⟨r, s', hrun, hr, hs'⟩ := h _ hc n errors s hs
  exact ⟨r, s', runOn_then hbound hrun, hr, hs'⟩

/-- One more of a list, or its end. -/
def collectStep (step : Parse (Option α)) (acc : List α) : Parse (List α ⊕ List α) :=
  step >>= fun found => found.elim (pure (.inr acc)) fun a => pure (.inl (a :: acc))

theorem collect_eq (step : Parse (Option α)) : collect step = (do
    let found ← iterate [] (collectStep step)
    return found.reverse) := by
  unfold collect
  congr 2
  funext acc
  unfold collectStep
  congr 1
  funext found
  cases found <;> rfl

/-! ## States that differ in what is no text -/

theorem Before.congr {l : Lexer} (h : Before C l s) (hlexer : s₁.lexer = s.lexer)
    (hcurrent : s₁.current = s.current) (hfollowing : s₁.following = s.following) :
    Before C l s₁ := by
  cases h with
  | fresh h h' hl => exact .fresh (hcurrent.trans h) (hfollowing.trans h') (hlexer.trans hl)
  | seen h h' hc hnext =>
    exact .seen (hcurrent.trans h) (hfollowing.trans h') hc (hlexer ▸ hnext)
  | waiting h h' hc hnext =>
    exact .waiting (hcurrent.trans h) (hfollowing.trans h') hc (hlexer ▸ hnext)
  | both h h' hc hnext hc' hnext' =>
    exact .both (hcurrent.trans h) (hfollowing.trans h') hc hnext hc' (hlexer ▸ hnext')

theorem Takes.modify {f : ParseState → ParseState} (hlexer : ∀ s, (f s).lexer = s.lexer)
    (hcurrent : ∀ s, (f s).current = s.current) (hfollowing : ∀ s, (f s).following = s.following) :
    Takes C c x x (MonadStateOf.modifyGet fun s => ((), f s)) fun _ => True := by
  intro hc n errors s hs
  obtain ⟨hsize, hfits, l, left, hl, hbefore, hleft⟩ := hs
  refine ⟨(), f s, rfl, trivial, by rw [hlexer]; exact hsize, hfits, l, left, hl, ?_, hleft⟩
  exact hbefore.congr (hlexer s) (hcurrent s) (hfollowing s)

theorem Takes.tryCatch {step : Parse α} {handle : SyntaxError → Parse α}
    (h : Takes C c x y step P) : Takes C c x y (tryCatch step handle) P := by
  intro hc n errors s hs
  obtain ⟨a, s', hrun, ha, hs'⟩ := h hc n errors s hs
  exact ⟨a, s', by rw [runOn_tryCatch, hrun], ha, hs'⟩

/-! ## Steps that stop -/

/-- On the text the step gives nothing. -/
def Refuses (C : Context → Prop) (c : Context) (x : Text) (step : Parse α) : Prop :=
  C c → ∀ n errors s, Faces C x n errors s → ∀ a s', runOn step c s ≠ (.ok a, s')

theorem gives_failExpected {wanted : String} : Gives P (failExpected wanted : Parse α) :=
  .bind fun _ => .fail _

namespace Refuses

theorem first {step : Parse α} {next : α → Parse β} (h : Refuses C c x step) :
    Refuses C c x (step >>= next) := by
  intro hc n errors s hs b s' hrun
  obtain ⟨a, s₁, hstep, -⟩ := of_runOn_bind_ok hrun
  exact h hc n errors s hs a s₁ hstep

theorem within {change : Context → Context} {step : Parse α} (hchange : C c → C (change c))
    (h : Refuses C (change c) x step) : Refuses C c x (Parse.within change step) := by
  intro hc n errors s hs
  rw [runOn_within]
  exact h (hchange hc) n errors s hs

theorem iterate {σ ρ : Type} {step : σ → Parse (σ ⊕ ρ)} {start : σ} (h : Refuses C c x (step start)) :
    Refuses C c x (Parse.iterate start step) := by
  intro hc n errors s hs a s' hrun
  have hbound : runOn bound c s = (.ok (2 * (s.lexer.stop - s.lexer.origin) + 8), s) := rfl
  rw [Parse.iterate, runOn_bind_of_ok hbound] at hrun
  exact h.first hc n errors s hs a s' hrun

end Refuses

theorem Takes.refuses {step : Parse α} {next : α → Parse β} (h : Takes C c x y step P)
    (hnext : ∀ a, P a → Refuses C c y (next a)) : Refuses C c x (step >>= next) := by
  intro hc n errors s hs
  obtain ⟨a, s', hrun, ha, hs'⟩ := h hc n errors s hs
  rw [runOn_bind_of_ok hrun]
  exact hnext a ha hc n errors s' hs'

end InlineTemplates.Script.Parse
