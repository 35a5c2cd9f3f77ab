import InlineTemplates.Proofs.ImportScan
import InlineTemplates.Proofs.ImportText.Reading
import InlineTemplates.Proofs.Lexing.Onward

/-! # Where the names of an import come from

Whatever text an import is read from, its names and its module are words and strings of that text. -/

namespace InlineTemplates.Script

/-- What a word or a string says. -/
def Token.said? : Token → Option Text
  | .name n _ => some n
  | .keyword k => some (text k.word)
  | .string value _ => some value
  | _ => none

namespace Parse

variable {c : Context} {l l' l'' : Lexer} {t : Token}

/-- The next token at the first place is this one, and the other place is behind it. -/
def HasRead (c : Context) (l : Lexer) (t : Token) (l' : Lexer) : Prop :=
  ∃ l₀ p l₁, Looked c l l₀ ∧ l₀.next c = (some p, l₁) ∧ p.token = t ∧ l₁.Onward l'

theorem HasRead.looked (h : HasRead c l' t l'') (hlooked : Looked c l l') : HasRead c l t l'' := by
  obtain ⟨l₀, p, l₁, hlooked', hnext, hp, hon⟩ := h
  exact ⟨l₀, p, l₁, hlooked.trans hlooked', hnext, hp, hon⟩

theorem HasRead.onward (h : HasRead c l t l') (hon : l'.Onward l'') : HasRead c l t l'' := by
  obtain ⟨l₀, p, l₁, hlooked, hnext, hp, hon'⟩ := h
  exact ⟨l₀, p, l₁, hlooked, hnext, hp, hon'.trans hon⟩

theorem HasRead.mayStart {gap rest : Text} {ch : Char} {n : Nat} {errors : List SyntaxError}
    (h : HasRead c l t l') (hc : c.Plain) (hl : l.Faces (gap ++ ch :: rest) n errors) (hgap : Gap gap)
    (hch : Text.isNamePart ch = true) (ht : t.isOther = false) : Read.mayStart ch = true := by
  obtain ⟨l₀, p, l₁, hlooked, hnext, rfl, -⟩ := h
  obtain ⟨q, l₂, hfirst, hstarts⟩ := Lexer.next_gap hc hl hgap (isPlainStart_of_isNamePart hch)
    (notDivider_of_isNamePart hch)
  obtain rfl := hlooked.stays (by rw [hfirst]; rfl)
  obtain ⟨hp, -⟩ := Prod.mk.inj (hnext.symm.trans hfirst)
  obtain rfl := Option.some.inj hp
  exact hstarts ht

theorem HasRead.fits (h : HasRead c l t l') (hc : c.Plain) (hregex : l.regexFrom = none)
    (herrors : l'.record.errors = []) :
    ∃ after : Lexer, Read.Fits l.rest t after ∧ after.record.errors = [] ∧ l'.rest <:+ after.rest := by
  obtain ⟨l₀, p, l₁, hlooked, hnext, rfl, hon⟩ := h
  obtain ⟨-, hfits⟩ := Lexer.next_onward hc (hlooked.onward.regexFrom.trans hregex) hnext
  exact ⟨l₁, (hfits p rfl).mono hlooked.onward.rest, hon.errors_nil herrors, hon.rest⟩

/-- The tree names what a word or a string says that was read between the places. -/
def HasNamed (c : Context) (l : Lexer) (name : Option Text) (l' : Lexer) : Prop :=
  ∃ t n, HasRead c l t l' ∧ t.said? = some n ∧ name = some n

theorem HasNamed.looked {name : Option Text} (h : HasNamed c l' name l'') (hlooked : Looked c l l') :
    HasNamed c l name l'' := by
  obtain ⟨t, n, hread, hn⟩ := h
  exact ⟨t, n, hread.looked hlooked, hn⟩

theorem HasNamed.onward {name : Option Text} (h : HasNamed c l name l') (hon : l'.Onward l'') :
    HasNamed c l name l'' := by
  obtain ⟨t, n, hread, hn⟩ := h
  exact ⟨t, n, hread.onward hon, hn⟩

/-! ## Names and strings -/

section

variable (hc : c.Plain)

include hc

theorem passes_taken {α : Type} (f : Span → α) : Passes c (do advance; return f (← previous))
    fun l a l' => l' = (l.next c).2 ∧ ∃ span, a = f span :=
  (Passes.advance hc).andThen fun _ => Passes.previous.andThen fun span => (Passes.pure _).mono <| by
    rintro l₂ _ l₃ - ⟨rfl, rfl⟩ l₁ - rfl l - rfl
    exact ⟨rfl, span, rfl⟩

theorem passes_stringPart? : Passes c stringPart? fun l found l' => match found with
    | some s => ∃ value raw, HasRead c l (.string value raw) l' ∧ writtenName? s = some value
    | none => Looked c l l' :=
  (Passes.token? hc).andThen fun t => by
    split
    · next value raw =>
      refine (passes_taken hc fun span => some (Tree.ofPart (.string value (some raw)) span [])).mono ?_
      rintro l₁ _ l₂ - ⟨rfl, span, rfl⟩ l - ⟨ht, hlooked⟩
      obtain ⟨p, hp, hvalue⟩ := Option.map_eq_some_iff.mp ht.symm
      obtain rfl := hlooked.stays (by rw [hp]; rfl)
      exact ⟨value, raw, ⟨_, p, _, .refl _, Prod.ext hp rfl, hvalue, .refl _⟩, rfl⟩
    · refine (Passes.pure _).mono ?_
      rintro l₁ _ l₂ - ⟨rfl, rfl⟩ l - ⟨-, hlooked⟩
      exact hlooked

theorem passes_anyName (hin : c.inType = false) : Passes c anyName fun l t l' =>
    HasNamed c l (writtenName? t) l' := by
  have hword : Passes c anyWord fun l w l' => HasNamed c l (some w.1) l' := by
    refine (Passes.someToken hc).andThen fun t => ?_
    have htaken (n : Text) (hn : t.said? = some n) : Passes c (do advance; return (n, ← previous))
        fun l₁ w l₂ => ∀ l : Lexer, l.Onward l₁ →
          (∃ p l', l.next c = (some p, l') ∧ p.token = t ∧ l₁ = l) →
            HasNamed c l (some w.1) l₂ := by
      refine (passes_taken hc fun span => (n, span)).mono ?_
      rintro l₁ _ l₂ - ⟨rfl, span, rfl⟩ l - ⟨p, l', hnext, ht, rfl⟩
      rw [hnext]
      exact ⟨t, n, ⟨_, p, l', .refl _, hnext, ht, .refl _⟩, hn, rfl⟩
    split
    · exact htaken _ rfl
    · exact htaken _ rfl
    · refine .after (a := c) (fun _ => rfl) ?_
      rw [hin]
      exact .fail _
    · exact .fail _
  refine hword.andThen fun w => (Passes.pure _).mono ?_
  rintro l₁ _ l₂ - ⟨rfl, rfl⟩ l - hnamed
  exact hnamed

theorem passes_exportName (hin : c.inType = false) : Passes c exportName fun l t l' =>
    HasNamed c l (writtenName? t) l' := by
  unfold exportName
  refine (passes_stringPart? hc).andThen fun found => ?_
  cases found with
  | some s =>
    refine (Passes.pure _).mono ?_
    rintro l₁ _ l₂ - ⟨rfl, rfl⟩ l - ⟨value, raw, hread, hs⟩
    exact ⟨_, value, hread, rfl, hs⟩
  | none =>
    refine Passes.mono (P := fun l t l' => HasNamed c l (writtenName? t) l') ?_
      fun _ _ _ _ hnamed _ _ hlooked => hnamed.looked hlooked
    refine (Passes.atWord hc).andThen fun b => .ite (fun _ => ?_) fun _ => .unexpected _
    exact (passes_anyName hc hin).mono fun _ _ _ _ hnamed _ _ hlooked => hnamed.looked hlooked.2

end

/-! ## Imports without types -/

section

abbrev plainModule : Context := moduleContext .plain

theorem plain_plainModule : plainModule.Plain := ⟨rfl, rfl⟩

/-- The specifier imports what a word or a string says that was read between the places. -/
def HasImported (c : Context) (l : Lexer) (specifier : Tree) (l' : Lexer) : Prop :=
  ∃ span name imported, specifier = .node (.part (.importNamed false)) span [name, imported] ∧
    HasNamed c l (importedName? name imported) l'

theorem HasImported.looked {specifier : Tree} (h : HasImported c l' specifier l'')
    (hlooked : Looked c l l') : HasImported c l specifier l'' := by
  obtain ⟨span, name, imported, hspecifier, hnamed⟩ := h
  exact ⟨span, name, imported, hspecifier, hnamed.looked hlooked⟩

theorem HasImported.onward {specifier : Tree} (h : HasImported c l specifier l')
    (hon : l'.Onward l'') : HasImported c l specifier l'' := by
  obtain ⟨span, name, imported, hspecifier, hnamed⟩ := h
  exact ⟨span, name, imported, hspecifier, hnamed.onward hon⟩

theorem importedName?_of_written {name imported : Tree} {n : Text}
    (h : writtenName? imported = some n) : importedName? name imported = some n := by
  have hpresent : imported.isAbsent = false := by
    rcases of_writtenName? h with ⟨s, parts, rfl⟩ | ⟨raw, s, parts, rfl⟩ <;> rfl
  rw [importedName?, hpresent]
  exact h

theorem runOn_isTypeWord (first : Tree) (s : ParseState) :
    runOn (isTypeWord first) plainModule s = (.ok false, s) := by
  unfold isTypeWord
  split
  · split <;> rfl
  · rfl

theorem passes_importSpecifier : Passes plainModule (importSpecifier false) fun l t l' =>
    HasImported plainModule l t l' := by
  have hc := plain_plainModule
  unfold importSpecifier
  refine (Passes.here hc).andThen fun start => ?_
  refine Passes.mono (P := HasImported plainModule) ?_
    fun _ _ _ _ himported _ _ hlooked => himported.looked hlooked
  refine (passes_exportName hc rfl).andThen fun first => ?_
  have halias : Passes plainModule (do
      let l ← declaredPlainName false
      return Tree.ofPart (.importNamed false) ⟨start, l.span.hi⟩ [l, first])
      fun l₁ t l₂ => ∀ l : Lexer, l.Onward l₁ →
        HasNamed plainModule l (writtenName? first) l₁ → HasImported plainModule l t l₂ := by
    refine (Passes.declaredPlainName hc).andThen fun name => (Passes.pure _).mono ?_
    rintro l₂ _ l₃ - ⟨rfl, rfl⟩ l₁ hon - l - ⟨t, n, hread, hn, hfirst⟩
    exact ⟨_, name, first, rfl, t, n, hread.onward hon, hn, importedName?_of_written hfirst⟩
  rw [if_neg Bool.false_ne_true]
  extract_lets ofWord rest
  have hrest : Passes plainModule (rest ()) fun l₁ t l₂ => ∀ l : Lexer, l.Onward l₁ →
      HasNamed plainModule l (writtenName? first) l₁ → HasImported plainModule l t l₂ := by
    refine Passes.after (runOn_isTypeWord first) (.after (fun _ => rfl) ?_)
    refine (Passes.acceptName hc "as").andThen fun renamed => .ite (fun _ => ?_) fun _ => ?_
    · exact halias.mono fun _ _ _ _ h _ hon _ l hon' hnamed => h l (hon'.trans hon) (hnamed.onward hon)
    · refine (Passes.spanFrom start).andThen fun span => (Passes.pure _).mono ?_
      rintro l₃ _ l₄ - ⟨rfl, rfl⟩ l₂ - rfl l₁ hon - l - hnamed
      exact ⟨span, first, .absent, rfl, hnamed.onward hon⟩
  split
  · refine (Passes.acceptName hc "as").andThen fun renamed =>
      .ite (fun _ => ?_) fun _ => .stops (.failAt _ _)
    exact halias.mono fun _ _ _ _ h _ hon _ l hon' hnamed => h l (hon'.trans hon) (hnamed.onward hon)
  · exact hrest

theorem passes_namesInBraces : Passes plainModule (namesInBraces (importSpecifier false))
    fun l names l' => ∀ one, names = [one] →
      HasImported plainModule (l.next plainModule).2 one l' := by
  have hc := plain_plainModule
  -- Before the first name nothing was taken, and behind it more may follow.
  let I (l₀ : Lexer) (found : List Tree) (l : Lexer) : Prop :=
    (found = [] → Looked plainModule l₀ l) ∧ ∀ one, found = [one] → HasImported plainModule l₀ one l
  have hnames : Passes plainModule (Parse.iterate ([] : List Tree) fun acc => do
      if (← atEnd) || (← at? .braceClose) then return .inr acc.reverse
      let name ← importSpecifier false
      if !(← at? .braceClose) then expect .comma
      return .inl (name :: acc)) fun l names l' => ∀ one, names = [one] →
        HasImported plainModule l one l' := by
    refine Passes.iterate (I := I) (fun l => ⟨fun _ => .refl l, fun _ h => by cases h⟩) fun acc => ?_
    refine (Passes.atEnd hc).andThen fun ended => (Passes.at? hc .braceClose).andThen fun closed => ?_
    refine .ite (fun _ => (Passes.pure _).mono ?_) fun _ => ?_
    · rintro l₂ _ l₃ - ⟨rfl, rfl⟩ l₁ hon - l hon' - l₀ ⟨-, hone⟩ one hnames
      have hacc : acc = [one] := List.reverse_eq_iff.mp hnames
      exact (hone one hacc).onward (hon'.trans hon)
    · have hseparated (name : Tree) : Passes plainModule (do
          if !(← at? .braceClose) then expect .comma
          return Sum.inl (name :: acc)) fun _ r _ =>
            r = (.inl (name :: acc) : List Tree ⊕ List Tree) := by
        have hpure : Passes plainModule (Pure.pure (.inl (name :: acc) : List Tree ⊕ List Tree))
            fun _ r _ => r = .inl (name :: acc) := (Passes.pure _).mono fun _ _ _ _ h => h.1
        refine (Passes.at? hc .braceClose).andThen fun last => .ite (fun _ => ?_) fun _ => ?_
        · exact (Passes.expect hc .comma).andThen fun _ =>
            hpure.mono fun _ _ _ _ h _ _ _ _ _ _ => h
        · exact hpure.mono fun _ _ _ _ h _ _ _ => h
      refine passes_importSpecifier.andThen fun name => (hseparated name).mono ?_
      rintro l₃ _ l₄ hon rfl l₂ - himported l₁ - ⟨-, hclosed⟩ l - hended l₀ ⟨hfirst, -⟩
      refine ⟨fun h => (by cases h), fun one hone => ?_⟩
      obtain ⟨rfl, hacc⟩ := List.cons.inj hone
      exact (himported.looked (((hfirst hacc).trans hended).trans hclosed)).onward hon
  refine (Passes.expect hc .braceOpen).andThen fun _ => hnames.andThen fun names => ?_
  refine (Passes.expect hc .braceClose).andThen fun _ => (Passes.pure _).mono ?_
  rintro l₃ _ l₄ - ⟨rfl, rfl⟩ l₂ hon - l₁ - himported l - rfl one hone
  exact (himported one hone).onward hon

/-! ## The module -/

theorem passes_specifier (hc : c.Plain) : Passes c specifier fun l src l' =>
    ∃ value raw, HasRead c l (.string value raw) l' ∧ writtenName? src = some value := by
  refine (Passes.someToken hc).andThen fun t => (passes_stringPart? hc).andThen fun found => ?_
  cases found with
  | none => exact .unexpected _
  | some s =>
    refine (Passes.pure _).mono ?_
    rintro l₂ _ l₃ - ⟨rfl, rfl⟩ l₁ - hread l - ⟨-, -, -, -, rfl⟩
    exact hread

theorem moves_expectSemicolon (hc : c.Plain) : Moves c expectSemicolon := by
  have haccept : Moves c acceptSemicolon := by
    refine (Passes.accept hc .semicolon).moves.bind fun b => ?_
    refine .ite (fun _ => (Passes.pure _).moves) fun _ => (Passes.token? hc).moves.bind fun t => ?_
    split
    · exact (Passes.pure _).moves
    · exact (Passes.pure _).moves
    · exact Passes.lineBreak hc
  exact haccept.bind fun b => .ite (fun _ => .failExpected _) fun _ => (Passes.pure _).moves

/-- The tree says what a string says that was read behind the place. -/
def HasQuoted (l : Lexer) (src : Tree) (l' : Lexer) : Prop :=
  ∃ l₁ value raw, l.Onward l₁ ∧ HasRead plainModule l₁ (.string value raw) l' ∧
    writtenName? src = some value

theorem passes_fromClause (g : Grammar) : Passes plainModule (fromClause g) fun l found l' =>
    HasQuoted l found.1 l' := by
  have hc := plain_plainModule
  have hattributes : Moves plainModule (importAttributes g) := by
    refine .after (a := false) (fun _ => rfl) ((Passes.lineBreak hc).bind fun b => ?_)
    exact .ite (fun _ => (Passes.pure _).moves) fun h => absurd rfl h
  refine (Passes.expectName hc "from").andThen fun _ => (passes_specifier hc).andThen fun src => ?_
  refine hattributes.andThen fun attributes => (moves_expectSemicolon hc).andThen fun _ => ?_
  refine (Passes.pure _).mono ?_
  rintro l₄ _ l₅ - ⟨rfl, rfl⟩ l₃ hon - l₂ hon' - l₁ - ⟨value, raw, hread, hsrc⟩ l hon'' -
  exact ⟨l₁, value, raw, hon'', hread.onward (hon'.trans hon), hsrc⟩

/-! ## Modules of one import -/

theorem Takes.peel {α β : Type} {x y : Text} {n : Nat} {errors : List SyntaxError}
    {s s' : ParseState} {P : α → Prop} {step : Parse α} {next : α → Parse β} {b : β}
    {C : Context → Prop} (h : Takes C c x y step P) (hs : Faces C x n errors s) (hc : C c)
    (hrun : runOn (step >>= next) c s = (.ok b, s')) :
    ∃ a s₁, P a ∧ Faces C y n errors s₁ ∧ runOn (next a) c s₁ = (.ok b, s') := by
  obtain ⟨a, s₁, hstep, ha, hs₁⟩ := h hc n errors s hs
  rw [runOn_bind_of_ok hstep] at hrun
  exact ⟨a, s₁, ha, hs₁, hrun⟩

theorem gives_items {item : Parse Tree} {x : List Tree × Bool} {k : Nat} (hx : k ≤ x.1.length)
    (n : Nat) : Gives (k ≤ ·.length) (iterateUpTo (itemStep item) n x) := by
  refine .iterateUpTo (I := (k ≤ ·.1.length)) (fun x hx => ?_) n hx
  refine .bind fun t => .ite (.pure ?_) (.bind fun i => .pure (Nat.le_succ_of_le hx))
  change k ≤ x.1.reverse.length
  rwa [List.length_reverse]

theorem of_runOn_items {item : Parse Tree} {one tree : Tree} {n : Nat} {strict : Bool}
    {s s' : ParseState} (hc : c.Plain)
    (hrun : runOn (iterateUpTo (itemStep item) n ([tree], strict)) c s = (.ok [one], s')) :
    one = tree ∧ (s.lexer.regexFrom = none → s.lexer.Onward s'.lexer) := by
  cases n with
  | zero => exact (Gives.failAtEnd (P := fun _ => False) c s _ _ hrun).elim
  | succ n =>
    obtain ⟨r, s₁, hstep, hrest⟩ := of_runOn_bind_ok hrun
    obtain ⟨t, s₂, htoken, hitem⟩ := of_runOn_bind_ok hstep
    have hon (hregex : s.lexer.regexFrom = none) : s.lexer.Onward s₂.lexer :=
      (Passes.token? hc s t s₂ htoken hregex).1
    cases t with
    | none =>
      obtain ⟨hr, rfl⟩ := Prod.mk.inj hitem
      obtain rfl := Except.ok.inj hr
      obtain ⟨hone, rfl⟩ := Prod.mk.inj hrest
      exact ⟨(List.cons.inj (Except.ok.inj hone)).1.symm, hon⟩
    | some t =>
      -- Another item would be found besides this one.
      obtain ⟨i, s₃, -, hmore⟩ := of_runOn_bind_ok hitem
      obtain ⟨hr, rfl⟩ := Prod.mk.inj hmore
      obtain rfl := Except.ok.inj hr
      have hfound : 2 ≤ [one].length :=
        gives_items (x := (i :: [tree], _)) (Nat.le_refl 2) n c _ _ _ hrest
      cases Nat.le_of_succ_le_succ hfound

theorem of_runOn_itemsUntilEnd {x y : Text} {n : Nat} {errors : List SyntaxError} {t : Token}
    {item : Parse Tree} {one : Tree} {s s' : ParseState} (hs : Faces (· = plainModule) x n errors s)
    (h : Leads x t y)
    (hrun : runOn (itemsUntilEnd item true false) plainModule s = (.ok [one], s')) :
    ∃ s₁ s₂, Faces (· = plainModule) x n errors s₁ ∧ runOn item plainModule s₁ = (.ok one, s₂) ∧
      (s₂.lexer.regexFrom = none → s₂.lexer.Onward s'.lexer) := by
  rw [itemsUntilEnd_eq] at hrun
  obtain ⟨steps, s₁, hbound, hsteps⟩ := of_runOn_bind_ok hrun
  obtain ⟨hcount, rfl⟩ := Prod.mk.inj hbound
  obtain rfl := Except.ok.inj hcount
  obtain ⟨r, s₂, hstep, hrest⟩ := of_runOn_bind_ok hsteps
  obtain ⟨_, s₃, rfl, hs₃, hfirst⟩ := (Takes.token? h).peel hs rfl hstep
  obtain ⟨tree, s₄, htree, hend⟩ := of_runOn_bind_ok hfirst
  obtain ⟨hr, rfl⟩ := Prod.mk.inj hend
  obtain rfl := Except.ok.inj hr
  obtain ⟨rfl, hon⟩ := of_runOn_items plain_plainModule hrest
  exact ⟨s₃, s₄, hs₃, htree, hon⟩

theorem of_runOn_moduleTree {x y z : Text} {n : Nat} {errors : List SyntaxError} {t : Token}
    {tree item : Tree} {s s' : ParseState} (hs : Faces (· = plainModule) x n errors s)
    (himport : Leads x (.keyword .import) y) (ht : Leads y t z)
    (hcall : (isMark .parenOpen (some t) || isMark .dot (some t)) = false)
    (hrun : runOn moduleTree plainModule s = (.ok tree, s')) (hitem : tree.parts = [item]) :
    ∃ g start s₁ s₂, Faces (· = plainModule) y n errors s₁ ∧
      runOn (importAfter g start) plainModule s₁ = (.ok item, s₂) ∧
      (s₂.lexer.regexFrom = none → s₂.lexer.Onward s'.lexer) := by
  obtain ⟨s₀, s₁, -, hs₁, hrun⟩ := Takes.get.peel hs rfl hrun
  obtain ⟨start, s₂, -, hs₂, hrun⟩ := (Takes.here himport).peel hs₁ rfl hrun
  obtain ⟨_, s₃, rfl, hs₃, hrun⟩ := (Takes.token? himport).peel hs₂ rfl hrun
  obtain ⟨hashbang, s₄, -, hs₄, hrun⟩ :=
    (Takes.pure (P := fun _ => True) trivial).peel hs₃ rfl hrun
  obtain ⟨items, s₅, hitems, hrun⟩ := of_runOn_bind_ok hrun
  obtain ⟨htree, rfl⟩ := Prod.mk.inj hrun
  obtain rfl := Except.ok.inj htree
  obtain rfl : items = [item] := hitem
  obtain ⟨s₆, s₇, hs₆, hitem, hon⟩ := of_runOn_itemsUntilEnd hs₄ himport hitems
  obtain ⟨_, s₈, rfl, hs₈, hitem⟩ := (Takes.atKeyword himport _).peel hs₆ rfl hitem
  obtain ⟨start, s₉, -, hs₉, hitem⟩ := (Takes.here himport).peel hs₈ rfl hitem
  obtain ⟨_, s₁₀, rfl, hs₁₀, hitem⟩ := (Takes.nextIs himport ht _).peel hs₉ rfl hitem
  rw [hcall] at hitem
  obtain ⟨-, s₁₁, -, hs₁₁, hitem⟩ := (Takes.advance himport).peel hs₁₀ rfl hitem
  exact ⟨_, start, s₁₁, s₇, hs₁₁, hitem, hon⟩

def importEnd (g : Grammar) (start : Nat) (names : List Tree) : Parse Tree := do
  let found ← fromClause g
  return .item (.import false .evaluation) (← spanFrom start) [.list names, found.1, found.2]

def importBody (g : Grammar) (start : Nat) (default : List Tree) : Parse Tree := do
  let listed ← importList false
  importEnd g start (default ++ listed)

/-- The item is an import of values with these names, from the module that the other tree says. -/
def IsImportOf (item : Tree) (names : List Tree) (src : Tree) : Prop :=
  ∃ span attributes, item =
    .node (.item (.import false .evaluation)) span [.list names, src, attributes]

theorem of_runOn_importAfter {x y z : Text} {n start : Nat} {errors : List SyntaxError} {t : Token}
    {g : Grammar} {default? : Option Text} {item : Tree} {s s' : ParseState}
    (hs : Faces (· = plainModule) x n errors s) (h : Leads x t z)
    (ht : ∀ value raw, t ≠ .string value raw)
    (hhead : Takes (· = plainModule) plainModule x y importHead (IsHead default? false .evaluation))
    (hrun : runOn (importAfter g start) plainModule s = (.ok item, s')) :
    ∃ default s₁, (default? = none → default = []) ∧ Faces (· = plainModule) y n errors s₁ ∧
      runOn (importBody g start default) plainModule s₁ = (.ok item, s') := by
  obtain ⟨_, s₁, rfl, hs₁, hrun⟩ := (takes_stringPart?_other h ht).peel hs rfl hrun
  obtain ⟨_, s₂, ⟨name?, hname, rfl⟩, hs₂, hrun⟩ := hhead.peel hs₁ rfl hrun
  refine ⟨name?.toList.map fun n => .ofPart .importDefault n.span [n], s₂, ?_, hs₂, ?_⟩
  · rintro rfl
    rw [hname]
    rfl
  · cases name? <;> exact hrun

theorem passes_importEnd (g : Grammar) (start : Nat) (names : List Tree) :
    Passes plainModule (importEnd g start names) fun l item l' =>
      ∃ src, IsImportOf item names src ∧ HasQuoted l src l' := by
  refine (passes_fromClause g).andThen fun found => (Passes.spanFrom start).andThen fun span => ?_
  refine (Passes.pure _).mono ?_
  rintro l₂ _ l₃ - ⟨rfl, rfl⟩ l₁ - rfl l - hquoted
  exact ⟨found.1, ⟨span, found.2, rfl⟩, hquoted⟩

theorem passes_named (g : Grammar) (start : Nat) :
    Passes plainModule (namesInBraces (importSpecifier false) >>= importEnd g start) fun l item l' =>
      ∃ names src l₁, IsImportOf item names src ∧ l.Onward l₁ ∧ l₁.Onward l' ∧ HasQuoted l₁ src l' ∧
        ∀ one, names = [one] → HasImported plainModule (l.next plainModule).2 one l₁ := by
  refine passes_namesInBraces.andThen fun names => (passes_importEnd g start names).mono ?_
  rintro l₁ item l₂ hon ⟨src, hitem, hquoted⟩ l hon' himported
  exact ⟨names, src, l₁, hitem, hon', hon, hquoted, himported⟩

theorem Passes.of_faces {α : Type} {step : Parse α} {Q : Lexer → α → Lexer → Prop} {x y : Text}
    {n : Nat} {errors : List SyntaxError} {a : α} {s s' : ParseState} (h : Passes c step Q)
    (hc : c.Plain) (hs : Faces (· = c) x n errors s) (hx : Leads x t y)
    (hrun : runOn step c s = (.ok a, s')) :
    s'.lexer.regexFrom = none ∧ (s'.lexer.record.errors = [] →
      ∃ l l' : Lexer, l.Faces x n errors ∧ l'.record.errors = [] ∧ Q l a l') := by
  obtain ⟨l, hl, hbefore⟩ := hs.of_leads hx
  have hregex : s.lexer.regexFrom = none :=
    (hbefore.onward hc hl.regexFrom).regexFrom.trans hl.regexFrom
  obtain ⟨hon, hpass⟩ := h s a s' hrun hregex
  refine ⟨hon.regexFrom.trans hregex, fun herrors => ?_⟩
  obtain ⟨l', hbefore', hon', ha⟩ := hpass herrors l hl.regexFrom hbefore
  have hbehind : l'.Onward s'.lexer := hbefore'.onward hc (hon'.regexFrom.trans hl.regexFrom)
  exact ⟨l, l', hl, hbehind.errors_nil herrors, ha⟩

/-- Of an import in braces, a lone name and the module are what was read where they are looked for. -/
theorem named_import_origin {x y z : Text} {n : Nat} {errors : List SyntaxError} {tree item : Tree}
    {s s' : ParseState} (hs : Faces (· = plainModule) x n errors s)
    (himport : Leads x (.keyword .import) y) (hopen : Leads y (.mark .braceOpen) z)
    (hrun : runOn moduleTree plainModule s = (.ok tree, s')) (hitem : tree.parts = [item])
    (herrors : s'.lexer.record.errors = []) :
    ∃ l l' : Lexer, l.Faces y n errors ∧ l'.record.errors = [] ∧
      ∃ names src l₁, IsImportOf item names src ∧ l.Onward l₁ ∧ l₁.Onward l' ∧ HasQuoted l₁ src l' ∧
        ∀ one, names = [one] → HasImported plainModule (l.next plainModule).2 one l₁ := by
  obtain ⟨g, start, s₁, s₂, hs₁, hafter, hon⟩ :=
    of_runOn_moduleTree hs himport hopen rfl hrun hitem
  have hhead : Takes (· = plainModule) plainModule y y importHead (IsHead none false .evaluation) := by
    rw [importHead_eq]
    exact (Takes.atFreeWord hopen).andThen (.taken (.pure ⟨none, rfl, rfl⟩))
  obtain ⟨default, s₃, hdefault, hs₃, hbody⟩ :=
    of_runOn_importAfter hs₁ hopen (fun _ _ => Token.noConfusion) hhead hafter
  obtain rfl := hdefault rfl
  obtain ⟨listed, s₄, hlist, hend⟩ := of_runOn_bind_ok hbody
  obtain ⟨place, s₅, -, hs₅, hlist⟩ := (Takes.here hopen).peel hs₃ rfl hlist
  obtain ⟨_, s₆, rfl, hs₆, hlist⟩ := (Takes.accept_other hopen rfl).peel hs₅ rfl hlist
  obtain ⟨_, s₇, rfl, hs₇, hlist⟩ := (Takes.at? hopen _).peel hs₆ rfl hlist
  obtain ⟨hregex, hplaces⟩ :=
    (passes_named g start).of_faces plain_plainModule hs₇ hopen (runOn_then hlist hend)
  exact hplaces ((hon hregex).errors_nil herrors)

theorem default_import_origin {x y z w m : Text} {n : Nat} {errors : List SyntaxError}
    {tree item : Tree} {s s' : ParseState} (hs : Faces (· = plainModule) x n errors s)
    (himport : Leads x (.keyword .import) y) (hname : Leads y (wordToken m) z)
    (hfrom : Leads z (wordToken (text "from")) w) (hm : Declarable m)
    (hwords : m ≠ text "type" ∧ m ≠ text "source" ∧ m ≠ text "defer")
    (hrun : runOn moduleTree plainModule s = (.ok tree, s')) (hitem : tree.parts = [item])
    (herrors : s'.lexer.record.errors = []) :
    ∃ l l' : Lexer, l.Faces z n errors ∧ l'.record.errors = [] ∧
      ∃ names src, IsImportOf item names src ∧ HasQuoted l src l' := by
  have hcall :
      (isMark .parenOpen (some (wordToken m)) || isMark .dot (some (wordToken m))) = false := by
    rw [isMark_wordToken, isMark_wordToken]
    rfl
  obtain ⟨g, start, s₁, s₂, hs₁, hafter, hon⟩ :=
    of_runOn_moduleTree hs himport hname hcall hrun hitem
  have hcomma : Lexes z ImportList.none.comma z := rfl
  have hlist : Lexes z (ImportList.none.tokens ++ [wordToken (text "from")]) w := ⟨w, hfrom, rfl⟩
  have hhead : Takes (· = plainModule) plainModule y z importHead
      (IsHead (some m) false .evaluation) := by
    refine takes_importHead_word hm hname fun first hfirst => ?_
    refine takes_headAfter_value hfirst hwords.1 hfrom ?_
    refine (takes_noEquals hfrom (isMark_wordToken _ _)).andThen (.otherwise ?_)
    rw [isNamed_of_isLeaf hfirst, isNamed_of_isLeaf hfirst, beq_false_of_ne hwords.2.1,
      beq_false_of_ne hwords.2.2]
    exact takes_closeHead hfirst hcomma hlist
  obtain ⟨default, s₃, -, hs₃, hbody⟩ :=
    of_runOn_importAfter hs₁ hname (wordToken_ne_string m) hhead hafter
  have hnone : ImportList.none.Legal .plain false := trivial
  have htokens : Lexes z ImportList.none.tokens z := rfl
  obtain ⟨listed, s₄, -, hs₄, hend⟩ := (takes_importList hnone htokens hfrom).peel hs₃ rfl hbody
  obtain ⟨hregex, hplaces⟩ := (passes_importEnd g start _).of_faces plain_plainModule hs₄ hfrom hend
  obtain ⟨l, l', hl, hl', src, hsrc⟩ := hplaces ((hon hregex).errors_nil herrors)
  exact ⟨l, l', hl, hl', _, src, hsrc⟩

end

/-! ## The text -/

theorem HasRead.holdsString {value raw : Text} (h : HasRead c l (.string value raw) l') (hc : c.Plain)
    (hregex : l.regexFrom = none) (herrors : l'.record.errors = []) :
    ∃ after, HoldsString l.rest value after ∧ l'.rest <:+ after := by
  obtain ⟨behind, hfits, hnone, hrest⟩ := h.fits hc hregex herrors
  exact ⟨behind.rest, (hfits hnone).1 value raw rfl, hrest⟩

theorem HasQuoted.holdsString {src : Tree} (h : HasQuoted l src l') (hregex : l.regexFrom = none)
    (herrors : l'.record.errors = []) :
    ∃ value after, writtenName? src = some value ∧ HoldsString l.rest value after := by
  obtain ⟨l₁, value, raw, hon, hread, hsrc⟩ := h
  obtain ⟨after, hholds, -⟩ :=
    hread.holdsString plain_plainModule (hon.regexFrom.trans hregex) herrors
  exact ⟨value, after, hsrc, hholds.of_suffix hon.rest⟩

theorem isNameStart_of_mayStart {ch : Char} (h : Read.mayStart ch = true)
    (hpart : Text.isNamePart ch = true) : Text.isNameStart ch = true := by
  rcases Bool.or_eq_true_iff.mp h with hstart | hother
  · exact hstart
  · have hnone : ['\\', '\'', '"'].all (fun d => !Text.isNamePart d) = true := by decide +kernel
    have hfalse := List.all_eq_true.mp hnone ch (List.contains_iff_mem.mp hother)
    rw [hpart] at hfalse
    cases hfalse

theorem HasNamed.word_or_string {said rest : Text} {n : Nat} {errors : List SyntaxError}
    (h : HasNamed c l (some said) l') (hc : c.Plain)
    (hl : l.Faces (' ' :: (said ++ rest)) n errors) (hsaid : said ≠ [])
    (herrors : l'.record.errors = []) :
    IsWordText said ∨ ∃ after, HoldsString (' ' :: (said ++ rest)) said after ∧ l'.rest <:+ after := by
  obtain ⟨t, name, hread, ht, hname⟩ := h
  obtain rfl := Option.some.inj hname
  cases t with
  | name word plain =>
    obtain rfl := Option.some.inj ht
    obtain ⟨behind, hfits, hnone, -⟩ := hread.fits hc hl.regexFrom herrors
    have hall : word.all Text.isNamePart = true := (hfits hnone).2 word plain rfl
    obtain ⟨ch, more, rfl⟩ := List.exists_cons_of_ne_nil hsaid
    have hpart : Text.isNamePart ch = true := List.all_eq_true.mp hall ch List.mem_cons_self
    have hl' : l.Faces ([' '] ++ ch :: (more ++ rest)) n errors := hl
    have hblank : Gap [' '] := .blanks (List.forall_mem_singleton.mpr (by decide))
    have hstart := hread.mayStart hc hl' hblank hpart rfl
    exact .inl ⟨isNameStart_of_mayStart hstart hpart, hall⟩
  | keyword k =>
    obtain rfl := Option.some.inj ht
    exact .inl (by cases k <;> decide)
  | string value raw =>
    obtain rfl := Option.some.inj ht
    obtain ⟨after, hholds, hrest⟩ := hread.holdsString hc hl.regexFrom herrors
    exact .inr ⟨after, hl.rest ▸ hholds, hrest⟩
  | _ => cases ht

end Parse
end InlineTemplates.Script
