import InlineTemplates.Proofs.ImportText.Names
import InlineTemplates.Proofs.Lexing.Items

/-! # Imports as they are read

What is read of an import is what its tokens say, wherever blanks and comments stand. -/

namespace InlineTemplates.Script
namespace Parse

variable {C : Context → Prop} {c : Context} {d : Dialect} {x y z : Text} {t : Token} {n : Text}

/-! ## Heads -/

/-- What stands before the braces or the star, and says these. -/
def IsHead (default? : Option Text) (typeOnly : Bool) (phase : ImportPhase) (head : ImportHead) :
    Prop :=
  ∃ name?, IsName? default? name? ∧
    head = { name? := name?, typeOnly := typeOnly, phase := phase }

section Head

variable {list : ImportList} {name : Tree} {typeOnly : Bool} {phase : ImportPhase}
  {value raw w : Text}

theorem leads_list (hlist : list ≠ .none) (h : Lexes x list.tokens y) :
    ∃ t z, Leads x t z ∧ (t = .mark (.op .mul) ∨ t = .mark .braceOpen) := by
  cases list with
  | none => exact absurd rfl hlist
  | all n => exact ⟨_, _, h.choose_spec.1, .inl rfl⟩
  | named names comma => exact ⟨_, _, h.choose_spec.1, .inr rfl⟩

theorem leads_afterDefault (hcomma : Lexes x list.comma y)
    (hlist : Lexes y (list.tokens ++ [wordToken (text "from")]) z)
    (hsource : Leads z (.string value raw) w) :
    ∃ t x₁ t' x₂, Leads x t x₁ ∧ Leads x₁ t' x₂ ∧
      (t = .mark .comma ∨ t = wordToken (text "from")) ∧ isName "from" (some t') = false ∧
      isMark (.assign .plain) (some t') = false := by
  obtain ⟨y₁, htaken, _, hfrom, rfl⟩ := lexes_append.mp hlist
  by_cases hnone : list = .none
  · subst hnone
    obtain rfl := hcomma
    obtain rfl := htaken
    exact ⟨_, _, _, _, hfrom, hsource, .inr rfl, rfl, rfl⟩
  · rw [ImportList.comma, if_pos (bne_iff_ne.mpr hnone)] at hcomma
    obtain ⟨_, hcomma, rfl⟩ := hcomma
    obtain ⟨t', x₂, ht', hor⟩ := leads_list hnone htaken
    refine ⟨_, _, t', x₂, hcomma, ht', .inl rfl, ?_⟩
    obtain rfl | rfl := hor <;> exact ⟨rfl, rfl⟩

theorem takes_closeHead (hname : IsLeaf (.name n) name) (hcomma : Lexes x list.comma y)
    (hlist : Lexes y (list.tokens ++ [wordToken (text "from")]) z) :
    Takes C c x y (closeHead name typeOnly phase) (IsHead (some n) typeOnly phase) := by
  by_cases hnone : list = .none
  · subst hnone
    obtain rfl := hcomma
    obtain ⟨_, hfrom, -⟩ := hlist
    refine (Takes.atName hfrom _).andThen ?_
    rw [isFrom_token]
    exact .otherwise (Takes.andThen (.pure rfl) (.pure ⟨_, ⟨_, rfl, hname⟩, rfl⟩))
  · rw [ImportList.comma, if_pos (bne_iff_ne.mpr hnone)] at hcomma
    obtain ⟨_, hcomma, rfl⟩ := hcomma
    refine (Takes.atName hcomma _).andThen (.taken ?_)
    exact (Takes.expect hcomma).before fun _ => .pure ⟨_, ⟨_, rfl, hname⟩, rfl⟩

theorem takes_phasedHead_own (hname : IsLeaf (.name n) name) (hcomma : Lexes x list.comma y)
    (hlist : Lexes y (list.tokens ++ [wordToken (text "from")]) z)
    (hsource : Leads z (.string value raw) w) :
    Takes C c x y (phasedHead name typeOnly phase) (IsHead (some n) typeOnly .evaluation) := by
  obtain ⟨t, x₁, t', x₂, ht, ht', hor, hfrom, -⟩ := leads_afterDefault hcomma hlist hsource
  refine (Takes.at? ht _).andThen ((Takes.at? ht _).andThen ?_)
  have hfollows : Takes C c x x ((atFreeWord <&&> notM (atName "from")) <||> nextIs (isName "from"))
      (· = false) := by
    have hnext := Takes.nextIs (C := C) (c := c) ht ht' (isName "from")
    rw [hfrom] at hnext
    refine Takes.or_of_false ?_ hnext
    obtain rfl | rfl := hor
    · exact Takes.and_of_false (Takes.atFreeWord ht)
    · have hat := Takes.atName (C := C) (c := c) ht "from"
      rw [isFrom_token] at hat
      refine (Takes.atFreeWord ht).bind fun free _ => ?_
      cases free with
      | true => exact hat.not
      | false => exact .pure rfl
  have hlisted : (isMark (.op .mul) (some t) || isMark .braceOpen (some t)) = false := by
    obtain rfl | rfl := hor
    · rfl
    · decide
  rw [hlisted]
  exact .otherwise (hfollows.andThen (.otherwise (takes_closeHead hname hcomma hlist)))

theorem takes_phasedHead (hn : Declarable n) (hfrom : n = text "from" → list = .none)
    (hname : Leads x (wordToken n) y) (hcomma : Lexes y list.comma z)
    (hlist : Lexes z (list.tokens ++ [wordToken (text "from")]) w) :
    Takes C (moduleContext d) x z (phasedHead name typeOnly phase)
      (IsHead (some n) typeOnly phase) := by
  refine (Takes.at? hname _).andThen ((Takes.at? hname _).andThen ?_)
  rw [isMark_wordToken, isMark_wordToken]
  refine .otherwise (Takes.andThen (y := x) (a := true) ?_ (.taken ?_))
  · have hat := Takes.atName (C := C) (c := moduleContext d) hname "from"
    have hfree := Takes.atFreeWord (C := C) (c := moduleContext d) hname
    rw [hn.isFreeWord] at hfree
    cases hisFrom : isName "from" (some (wordToken n)) with
    | false =>
      rw [hisFrom] at hat
      exact Takes.or_of_true (hfree.and_of_true hat.not)
    | true =>
      rw [hisFrom] at hat
      refine Takes.or_of_false (hfree.and_of_true hat.not) ?_
      have heq : n = text "from" := by simpa [hn.token, isName] using hisFrom
      obtain rfl := hfrom heq
      obtain rfl := hcomma
      obtain ⟨_, hlist, -⟩ := hlist
      have hnext := Takes.nextIs (C := C) (c := moduleContext d) hname hlist (isName "from")
      rwa [isFrom_token] at hnext
  · refine (takes_importedName hn hname).bind ?_
    rintro _ ⟨span, rfl⟩
    exact takes_closeHead ⟨span, rfl⟩ hcomma hlist

theorem isNamed_of_isLeaf {word : String} (hname : IsLeaf (.name n) name) :
    isNamed word name = (n == text word) := by
  obtain ⟨span, rfl⟩ := hname
  exact beq_eq_decide _ _ |>.trans <| by simp [Tree.ofPart, Tree.kind, beq_eq_decide]

theorem takes_noEquals (h : Leads x t y) (ht : isMark (.assign .plain) (some t) = false) :
    Takes C c x x (typed <&&> at? (.assign .plain)) (· = false) := by
  have hat := Takes.at? (C := C) (c := c) h (.assign .plain)
  rw [ht] at hat
  refine Takes.typed.bind fun types _ => ?_
  cases types with
  | true => exact hat
  | false => exact .pure rfl

theorem takes_valueHead_own (hname : IsLeaf (.name n) name) (hcomma : Lexes x list.comma y)
    (hlist : Lexes y (list.tokens ++ [wordToken (text "from")]) z)
    (hsource : Leads z (.string value raw) w) :
    Takes C c x y (valueHead name typeOnly) (IsHead (some n) typeOnly .evaluation) := by
  obtain ⟨t, x₁, -, -, ht, -, hor, -⟩ := leads_afterDefault hcomma hlist hsource
  have hequals : isMark (.assign .plain) (some t) = false := by
    obtain rfl | rfl := hor
    · rfl
    · exact isMark_wordToken _ _
  refine (takes_noEquals ht hequals).andThen (.otherwise ?_)
  have hown (phase : ImportPhase) : Takes C c x y (phasedHead name typeOnly phase)
      (IsHead (some n) typeOnly .evaluation) := takes_phasedHead_own hname hcomma hlist hsource
  cases isNamed "source" name with
  | true => exact hown .source
  | false =>
    cases isNamed "defer" name with
    | true => exact hown .defer
    | false => exact takes_closeHead hname hcomma hlist

/-- What stands behind a word for the phase, before the braces or the star. -/
def BehindPhase (x y z : Text) (default? : Option Text) (list : ImportList) : Prop :=
  Lexes y (list.tokens ++ [wordToken (text "from")]) z ∧
    match default? with
    | some n => Declarable n ∧ (n = text "from" → list = .none) ∧
        Lexes x (wordToken n :: list.comma) y
    | none => list ≠ .none ∧ x = y

theorem BehindPhase.leads {default? : Option Text} (h : BehindPhase x y z default? list) :
    ∃ t x₁, Leads x t x₁ ∧ isMark (.assign .plain) (some t) = false := by
  obtain ⟨hlist, hbehind⟩ := h
  cases default? with
  | some n =>
    obtain ⟨-, -, x₁, hx₁, -⟩ := hbehind
    exact ⟨_, x₁, hx₁, isMark_wordToken _ _⟩
  | none =>
    obtain ⟨hlisted, rfl⟩ := hbehind
    obtain ⟨_, htaken, -⟩ := lexes_append.mp hlist
    obtain ⟨t, x₁, ht, rfl | rfl⟩ := leads_list hlisted htaken <;> exact ⟨_, x₁, ht, rfl⟩

theorem takes_valueHead {default? : Option Text} {p : Text} (hp : phase.word? = some p)
    (hname : IsLeaf (.name p) name) (h : BehindPhase x y z default? list) :
    Takes C (moduleContext d) x y (valueHead name typeOnly) (IsHead default? typeOnly phase) := by
  have hphased : Takes C (moduleContext d) x y (phasedHead name typeOnly phase)
      (IsHead default? typeOnly phase) := by
    obtain ⟨hlist, hbehind⟩ := h
    cases default? with
    | some n =>
      obtain ⟨hn, hfrom, x₁, hx₁, hcomma⟩ := hbehind
      exact takes_phasedHead hn hfrom hx₁ hcomma hlist
    | none =>
      obtain ⟨hlisted, rfl⟩ := hbehind
      obtain ⟨x₁, htaken, -⟩ := lexes_append.mp hlist
      obtain ⟨t, x₁, ht, hor⟩ := leads_list hlisted htaken
      have hopens : (isMark (.op .mul) (some t) || isMark .braceOpen (some t)) = true := by
        obtain rfl | rfl := hor <;> rfl
      refine (Takes.at? ht _).andThen ((Takes.at? ht _).andThen ?_)
      rw [hopens]
      exact .taken (.pure ⟨none, rfl, rfl⟩)
  obtain ⟨t, x₁, ht, hequals⟩ := h.leads
  refine (takes_noEquals ht hequals).andThen (.otherwise ?_)
  rw [isNamed_of_isLeaf hname, isNamed_of_isLeaf hname]
  cases phase with
  | evaluation => cases hp
  | source =>
    obtain rfl := Option.some.inj hp
    exact .taken hphased
  | defer =>
    obtain rfl := Option.some.inj hp
    exact .otherwise (.taken hphased)

theorem takes_headAfter_own (hname : IsLeaf (.name n) name) (hcomma : Lexes x list.comma y)
    (hlist : Lexes y (list.tokens ++ [wordToken (text "from")]) z)
    (hsource : Leads z (.string value raw) w) :
    Takes C c x y (headAfter name) (IsHead (some n) false .evaluation) := by
  obtain ⟨t, x₁, t', x₂, ht, ht', hor, hfrom, hequals⟩ := leads_afterDefault hcomma hlist hsource
  have hvalue : Takes C c x y (valueHead name false) (IsHead (some n) false .evaluation) :=
    takes_valueHead_own hname hcomma hlist hsource
  refine (Takes.at? ht _).andThen ((Takes.at? ht _).andThen (Takes.typed.andThen ?_))
  cases c.dialect.types && isNamed "type" name with
  | false => exact .otherwise hvalue
  | true =>
    obtain rfl | rfl := hor
    · exact .taken (.otherwise ((Takes.atFreeWord ht).andThen (.taken hvalue)))
    · rw [isMark_wordToken, isMark_wordToken]
      refine .taken (.otherwise ((Takes.atFreeWord ht).andThen ?_))
      rw [declarable_from.isFreeWord]
      have hother : Takes C c x x (notM (atName "from") <||> nextIs (isName "from")) (· = false) := by
        have hat := Takes.atName (C := C) (c := c) ht "from"
        have hnext := Takes.nextIs (C := C) (c := c) ht ht' (isName "from")
        rw [isFrom_token] at hat
        rw [hfrom] at hnext
        exact Takes.or_of_false hat.not hnext
      have hassign := Takes.nextIs (C := C) (c := c) ht ht' (isMark (.assign .plain))
      rw [hequals] at hassign
      exact .otherwise (hother.andThen (.otherwise (hassign.andThen (.otherwise hvalue))))

theorem takes_headAfter_value {P : ImportHead → Prop} (hname : IsLeaf (.name n) name)
    (hn : n ≠ text "type") (h : Leads x t z)
    (hvalue : Takes C c x y (valueHead name false) P) : Takes C c x y (headAfter name) P := by
  refine (Takes.at? h _).andThen ((Takes.at? h _).andThen (Takes.typed.andThen ?_))
  rw [isNamed_of_isLeaf hname, beq_false_of_ne hn, Bool.and_false]
  exact .otherwise hvalue

theorem takes_headAfter_listed (hd : c.dialect.types = true)
    (hname : IsLeaf (.name (text "type")) name) (h : Leads x t z)
    (ht : t = .mark (.op .mul) ∨ t = .mark .braceOpen) :
    Takes C c x x (headAfter name) (IsHead none true .evaluation) := by
  refine (Takes.at? h _).andThen ((Takes.at? h _).andThen (Takes.typed.andThen ?_))
  rw [hd, isNamed_of_isLeaf hname]
  have hopens : (isMark (.op .mul) (some t) || isMark .braceOpen (some t)) = true := by
    obtain rfl | rfl := ht <;> rfl
  rw [hopens]
  exact .taken (.taken (.pure ⟨none, rfl, rfl⟩))

theorem takes_headAfter_type {P : ImportHead → Prop} (hd : d.types = true)
    (hname : IsLeaf (.name (text "type")) name) (hn : Declarable n) (h : Leads x (wordToken n) y)
    (hfrom : n = text "from" → ∃ w, Leads y (wordToken (text "from")) w)
    (hvalue : ∀ other, IsLeaf (.name n) other →
      Takes C (moduleContext d) y z (valueHead other true) P) :
    Takes C (moduleContext d) x z (headAfter name) P := by
  refine (Takes.at? h _).andThen ((Takes.at? h _).andThen (Takes.typed.andThen ?_))
  rw [isMark_wordToken, isMark_wordToken, isNamed_of_isLeaf hname]
  have htypes : (moduleContext d).dialect.types = true := hd
  rw [htypes]
  refine .taken (.otherwise ((Takes.atFreeWord h).andThen ?_))
  rw [hn.isFreeWord]
  refine .otherwise (Takes.andThen (y := x) (a := true) ?_ (.taken ?_))
  · have hat := Takes.atName (C := C) (c := moduleContext d) h "from"
    cases hisFrom : isName "from" (some (wordToken n)) with
    | false =>
      rw [hisFrom] at hat
      exact Takes.or_of_true hat.not
    | true =>
      rw [hisFrom] at hat
      have heq : n = text "from" := by simpa [hn.token, isName] using hisFrom
      obtain ⟨_, hnext⟩ := hfrom heq
      have hnext := Takes.nextIs (C := C) (c := moduleContext d) h hnext (isName "from")
      rw [isFrom_token] at hnext
      exact Takes.or_of_false hat.not hnext
  · exact (takes_importedName hn h).bind hvalue

theorem takes_importHead_word {P : ImportHead → Prop} (hn : Declarable n)
    (h : Leads x (wordToken n) y)
    (hrest : ∀ first, IsLeaf (.name n) first → Takes C (moduleContext d) y z (headAfter first) P) :
    Takes C (moduleContext d) x z importHead P := by
  rw [importHead_eq]
  refine (Takes.atFreeWord h).andThen ?_
  rw [hn.isFreeWord]
  exact .otherwise ((takes_importedName hn h).bind hrest)

end Head

theorem ImportPhase.declarable_of_word? {phase : ImportPhase} {p : Text}
    (h : phase.word? = some p) : Declarable p ∧ p ≠ text "type" ∧ p ≠ text "from" := by
  cases phase with
  | evaluation => cases h
  | source =>
    obtain rfl := Option.some.inj h
    decide
  | defer =>
    obtain rfl := Option.some.inj h
    decide

theorem ImportPhase.word?_eq_none_iff {phase : ImportPhase} :
    phase.word? = none ↔ phase = .evaluation := by
  cases phase <;> simp [ImportPhase.word?]

theorem declarable_type : Declarable (text "type") := by decide

theorem takes_importHead {i : ImportSyntax} (hi : i.Legal d) (hnamed : i.named = true)
    {value raw w : Text}
    (hhead : Lexes x (i.headTokens ++ i.defaultTokens) y)
    (hlist : Lexes y (i.list.tokens ++ [wordToken (text "from")]) z)
    (hsource : Leads z (.string value raw) w) :
    Takes C (moduleContext d) x y importHead (IsHead i.default? i.typeOnly i.phase) := by
  obtain ⟨typeOnly, phase, default?, list, raw', value'⟩ := i
  have hdefault := hi.default
  have hlisted (h : default? = none) : list ≠ .none := by
    subst h
    simpa [ImportSyntax.named] using hnamed
  -- Where a word says the phase, all that follows it is behind that word.
  have hbehind {p x₁ : Text} (hp : phase.word? = some p) (h : Lexes x₁
      (default?.toList.map wordToken ++ if default?.isSome then list.comma else []) y) :
      BehindPhase x₁ y z default? list := by
    refine ⟨hlist, ?_⟩
    cases default? with
    | none => exact ⟨hlisted rfl, h⟩
    | some n =>
      refine ⟨(hdefault n rfl).1, fun hn => (hdefault n rfl).2 hn ?_, h⟩
      simp [ImportSyntax.headTokens, hp]
  cases typeOnly with
  | false =>
    cases hp : phase.word? with
    | some p =>
      obtain ⟨hpd, hptype, -⟩ := ImportPhase.declarable_of_word? hp
      rw [ImportSyntax.headTokens, hp] at hhead
      obtain ⟨x₁, hword, hrest⟩ := hhead
      refine takes_importHead_word hpd hword fun first hfirst => ?_
      obtain ⟨t, x₂, ht, -⟩ := (hbehind hp hrest).leads
      exact takes_headAfter_value hfirst hptype ht (takes_valueHead hp hfirst (hbehind hp hrest))
    | none =>
      obtain rfl := ImportPhase.word?_eq_none_iff.mp hp
      cases default? with
      | none =>
        obtain rfl := hhead
        obtain ⟨_, htaken, -⟩ := lexes_append.mp hlist
        obtain ⟨t, x₁, ht, hor⟩ := leads_list (hlisted rfl) htaken
        rw [importHead_eq]
        refine (Takes.atFreeWord ht).andThen ?_
        obtain rfl | rfl := hor <;> exact .taken (.pure ⟨none, rfl, rfl⟩)
      | some n =>
        obtain ⟨x₁, hname, hcomma⟩ := hhead
        refine takes_importHead_word (hdefault n rfl).1 hname fun first hfirst => ?_
        exact takes_headAfter_own hfirst hcomma hlist hsource
  | true =>
    have htypes : d.types = true := hi.types rfl
    cases hp : phase.word? with
    | some p =>
      obtain ⟨hpd, -, hpfrom⟩ := ImportPhase.declarable_of_word? hp
      rw [ImportSyntax.headTokens, hp] at hhead
      obtain ⟨x₁, htype, x₂, hword, hrest⟩ := hhead
      refine takes_importHead_word declarable_type htype fun first hfirst => ?_
      refine takes_headAfter_type htypes hfirst hpd hword (fun hn => absurd hn hpfrom) ?_
      exact fun other hother => takes_valueHead hp hother (hbehind hp hrest)
    | none =>
      obtain rfl := ImportPhase.word?_eq_none_iff.mp hp
      cases default? with
      | none =>
        obtain ⟨_, htype, rfl⟩ := hhead
        refine takes_importHead_word declarable_type htype fun first hfirst => ?_
        obtain ⟨_, htaken, -⟩ := lexes_append.mp hlist
        obtain ⟨t, x₁, ht, hor⟩ := leads_list (hlisted rfl) htaken
        exact takes_headAfter_listed htypes hfirst ht hor
      | some n =>
        obtain ⟨x₁, htype, x₂, hname, hcomma⟩ := hhead
        refine takes_importHead_word declarable_type htype fun first hfirst => ?_
        refine takes_headAfter_type htypes hfirst (hdefault n rfl).1 hname (fun hn => ?_) ?_
        · obtain rfl : list = .none := (hdefault n rfl).2 hn (List.cons_ne_nil _ _)
          obtain rfl := hcomma
          obtain ⟨w, hfrom, -⟩ := hlist
          exact ⟨w, hfrom⟩
        · exact fun other hother => takes_valueHead_own hother hcomma hlist hsource

/-! ## Whole imports -/

/-- A statement ends here: at a semicolon or at the end of the source. -/
def Closes (x y : Text) : Prop := (LastGap x ∧ y = []) ∨ Leads x (.mark .semicolon) y

theorem takes_importAttributes (g : Grammar) (h : Closes x y) :
    ∃ x₁, Closes x₁ y ∧ Takes C c x x₁ (importAttributes g) (· = .absent) := by
  obtain ⟨hend, rfl⟩ | hsemicolon := h
  · refine ⟨[], .inl ⟨Gap.nil.last, rfl⟩, Takes.typed.andThen ?_⟩
    refine (Takes.lineBreak_end hend).andThen ?_
    rw [Bool.or_true]
    exact .taken (.pure rfl)
  · refine ⟨x, .inr hsemicolon, Takes.typed.andThen ((Takes.lineBreak hsemicolon).bind ?_)⟩
    intro lineBreak _
    cases !c.dialect.types || lineBreak with
    | true => exact .taken (.pure rfl)
    | false =>
      refine .otherwise ?_
      have hassert : Takes C c x x (acceptName "assert") (· = false) :=
        Takes.acceptName_other hsemicolon rfl
      have hwith := Takes.acceptKeyword_other (C := C) (c := c) (k := .with) hsemicolon rfl
      exact (hassert.or_of_false hwith).andThen (.otherwise (.pure rfl))

theorem takes_expectSemicolon (h : Closes x y) :
    Takes C c x y expectSemicolon fun _ => True := by
  have haccept : Takes C c x y acceptSemicolon (· = true) := by
    obtain ⟨hend, rfl⟩ | hsemicolon := h
    · refine (Takes.accept_end hend _).andThen (.otherwise ?_)
      exact (Takes.token?_end Gap.nil.last).andThen (.pure rfl)
    · exact (Takes.accept hsemicolon).andThen (.taken (.pure rfl))
  exact haccept.andThen (.otherwise (.pure trivial))

theorem takes_fromClause (g : Grammar) {value raw : Text} {x₁ : Text}
    (h : Lexes x [wordToken (text "from"), .string value raw] x₁) (hclose : Closes x₁ y) :
    Takes C c x y (fromClause g)
      fun found => IsLeaf (.string value (some raw)) found.1 ∧ found.2 = .absent := by
  obtain ⟨_, hfrom, _, hsource, rfl⟩ := h
  obtain ⟨x₂, hclose, hattributes⟩ := takes_importAttributes (C := C) (c := c) g hclose
  refine (Takes.expectName hfrom isFrom_token).before fun _ => ?_
  refine (takes_specifier hsource).bind fun src hsrc => hattributes.andThen ?_
  exact (takes_expectSemicolon hclose).before fun _ => .pure ⟨hsrc, rfl⟩

theorem leads_rest {i : ImportSyntax} (h : Lexes x i.restTokens y) :
    ∃ t z, Leads x t z ∧ (isMark .parenOpen (some t) || isMark .dot (some t)) = false ∧
      (i.named = true → ∀ value raw, t ≠ .string value raw) := by
  obtain ⟨typeOnly, phase, default?, list, raw, value⟩ := i
  have hword {n z : Text} (h : Leads x (wordToken n) z) : ∃ t z, Leads x t z ∧
      (isMark .parenOpen (some t) || isMark .dot (some t)) = false ∧
        (ImportSyntax.named ⟨typeOnly, phase, default?, list, raw, value⟩ = true →
          ∀ value raw, t ≠ .string value raw) := by
    refine ⟨_, z, h, ?_, fun _ => wordToken_ne_string n⟩
    rw [isMark_wordToken, isMark_wordToken]
    rfl
  cases typeOnly with
  | true => exact hword h.choose_spec.1
  | false =>
    cases hp : phase.word? with
    | some p =>
      rw [ImportSyntax.restTokens, ImportSyntax.headTokens, hp] at h
      exact hword h.choose_spec.1
    | none =>
      rw [ImportSyntax.restTokens, ImportSyntax.headTokens, hp] at h
      cases default? with
      | some n => exact hword h.choose_spec.1
      | none =>
        cases list with
        | none => exact ⟨_, _, h.choose_spec.1, rfl, fun h => by cases h⟩
        | all n => exact ⟨_, _, h.choose_spec.1, rfl, fun _ _ _ => Token.noConfusion⟩
        | named names comma => exact ⟨_, _, h.choose_spec.1, rfl, fun _ _ _ => Token.noConfusion⟩

theorem eraseSpans_default {default? : Option Text} {name? : Option Tree}
    (h : IsName? default? name?) :
    (name?.toList.map fun n => Tree.ofPart .importDefault n.span [n]).map Tree.eraseSpans =
      default?.toList.map fun n => Tree.ofPart .importDefault .nowhere [nameTree n] := by
  cases default? with
  | none =>
    obtain rfl := h
    rfl
  | some n =>
    obtain ⟨_, rfl, span, rfl⟩ := h
    rfl

theorem takes_importAfter (g : Grammar) (start : Nat) {i : ImportSyntax} (hi : i.Legal d)
    {x₁ : Text} (h : Lexes x i.restTokens x₁) (hclose : Closes x₁ y) :
    Takes C (moduleContext d) x y (importAfter g start) i.tree.Is := by
  cases hnamed : i.named with
  | true =>
    obtain ⟨t, z, hz, -, hstring⟩ := leads_rest h
    refine (takes_stringPart?_other hz (hstring hnamed)).andThen ?_
    rw [ImportSyntax.restTokens, hnamed] at h
    obtain ⟨y₁, hhead, hrest⟩ := lexes_append.mp h
    obtain ⟨y₂, hlist, hfrom⟩ := lexes_append.mp hrest
    obtain ⟨y₃, hword, y₄, hsource, rfl⟩ := id hfrom
    have hbefore : Lexes y₁ (i.list.tokens ++ [wordToken (text "from")]) y₃ :=
      lexes_append.mpr ⟨y₂, hlist, y₃, hword, rfl⟩
    refine (takes_importHead hi hnamed hhead hbefore hsource).bind ?_
    rintro _ ⟨name?, hname, rfl⟩
    have hbody : Takes C (moduleContext d) y₁ y (do
        let default := name?.toList.map fun n => Tree.ofPart .importDefault n.span [n]
        let listed ← importList i.typeOnly
        let found ← fromClause g
        return .item (.import i.typeOnly i.phase) (← spanFrom start)
          [.list (default ++ listed), found.1, found.2]) i.tree.Is := by
      refine (takes_importList hi.list hlist hword).bind fun listed hlisted => ?_
      refine (takes_fromClause g hfrom hclose).bind ?_
      rintro ⟨src, attributes⟩ ⟨⟨span, rfl⟩, rfl⟩
      refine (Takes.spanFrom _).before fun whole => .pure ?_
      have hdefault := eraseSpans_default hname
      simp only [Tree.Is, Tree.item, Tree.list, Tree.eraseSpans_node, List.map_cons, List.map_append,
        hdefault, hlisted]
      rfl
    cases hdefault : i.default? with
    | none =>
      rw [hdefault] at hname
      obtain rfl := hname
      exact hbody
    | some n =>
      rw [hdefault] at hname
      obtain ⟨name, rfl, -⟩ := hname
      exact hbody
  | false =>
    obtain ⟨hdefault, hlist⟩ := i.named_eq_false_iff.mp hnamed
    have htokens : i.restTokens = [.string i.value i.raw] := by
      rw [i.restTokens_of_bare hnamed, hi.bare hnamed]
      rfl
    obtain ⟨_, hsource, rfl⟩ := htokens ▸ h
    obtain ⟨x₂, hclose, hattributes⟩ := takes_importAttributes (C := C) (c := moduleContext d) g hclose
    refine (takes_stringPart? hsource).bind ?_
    rintro _ ⟨_, rfl, span, rfl⟩
    refine hattributes.andThen ((takes_expectSemicolon hclose).before fun _ => ?_)
    refine (Takes.spanFrom _).before fun whole => .pure ?_
    obtain ⟨htype, hphase⟩ := i.headTokens_eq_nil_iff.mp (hi.bare hnamed)
    rw [Tree.Is, ImportSyntax.tree, htype, hphase, hdefault, hlist]
    rfl

theorem takes_moduleItem (g : Grammar) {i : ImportSyntax} (hi : i.Legal d) {x₁ : Text}
    (h : Lexes x i.tokens x₁) (hclose : Closes x₁ y) :
    Takes C (moduleContext d) x y (moduleItemOf g) i.tree.Is := by
  obtain ⟨w, himport, hrest⟩ := h
  obtain ⟨t, z, ht, hcall, -⟩ := leads_rest hrest
  have hnext := Takes.nextIs (C := C) (c := moduleContext d) himport ht
    fun t => isMark .parenOpen t || isMark .dot t
  rw [hcall] at hnext
  refine (Takes.atKeyword himport _).andThen (.taken ?_)
  refine (Takes.here himport).before fun start => hnext.andThen (.otherwise ?_)
  exact (Takes.advance himport).before fun _ => takes_importAfter g start hi hrest hclose

end Parse

theorem readsItem_import {d : Dialect} {i : ImportSyntax} (hi : i.Legal d) {x x₁ y : Text}
    (h : Lexes x i.tokens x₁) (hclose : Parse.Closes x₁ y) : ReadsItem d x i.tree y where
  starts := ⟨_, _, h.choose_spec.1⟩
  shorter := by
    have hlength := h.length_le
    have hbehind : y.length ≤ x₁.length := by
      obtain ⟨-, rfl⟩ | hsemicolon := hclose
      · exact Nat.zero_le _
      · exact Nat.le_of_lt hsemicolon.length_lt
    simp only [ImportSyntax.tokens, List.length_cons] at hlength
    omega
  takes n _ := Parse.takes_moduleItem _ hi h hclose

/-- What spells an import, up to the end or a semicolon, is read as a module of that import. -/
theorem ofSource?_import {d : Dialect} {i : ImportSyntax} (hi : i.Legal d) {x x₁ y : Text}
    (h : Lexes x i.tokens x₁) (hclose : Parse.Closes x₁ y) (hy : LastGap y)
    (hmark : withoutMark x = x) :
    ∃ program, Program.ofSource? d x = .ok program ∧ program.source = x ∧
      program.tree.eraseSpans = .node (.module none) .nowhere [i.tree] := by
  have hmodule : ReadsModule d x none [i.tree] y := ⟨y, readsItem_import hi h hclose, rfl⟩
  exact ofSource?_module hmodule hy hmark

theorem runOn_of_ofSource? {d : Dialect} {x : Text} {program : Program}
    (h : Program.ofSource? d x = .ok program) (hmark : withoutMark x = x) :
    ∃ s, Parse.runOn Parse.moduleTree (moduleContext d) (Parse.startOf x) = (.ok program.tree, s) ∧
      s.lexer.record.errors = [] := by
  unfold Program.ofSource? at h
  rw [hmark] at h
  change (Parse.onSource Parse.moduleTree (moduleContext d) x >>= _) = _ at h
  cases hrun : Parse.onSource Parse.moduleTree (moduleContext d) x with
  | error e =>
    rw [hrun] at h
    cases h
  | ok found =>
    rw [hrun] at h
    cases h
    exact ⟨found.2, Parse.of_onSource_ok hrun⟩

end InlineTemplates.Script
