import InlineTemplates.Proofs.ImportText.Reading

/-! # Words that need names

A word that says what is imported and when is a name itself if a string follows it at once; and a name
needs the word `from`. So no import is read from such a text. -/

namespace InlineTemplates.Script
namespace Parse

variable {C : Context → Prop} {c : Context} {d : Dialect} {s s₁ : ParseState} {x y z : Text}
  {t : Token} {n value raw : Text} {name : Tree} {typeOnly : Bool} {phase : ImportPhase}

theorem ne_ok_closeHead {p : PlacedToken} (hplaced : runOn placed? c s = (.ok (some p), s₁))
    (hcurrent : s₁.current = some p) (hfrom : isName "from" (some p.token) = false)
    (hcomma : isMark .comma (some p.token) = false) (a : ImportHead) (s' : ParseState) :
    runOn (closeHead name typeOnly phase) c s ≠ (.ok a, s') := by
  have hname : runOn (atName "from") c s = (.ok false, s₁) := by
    rw [← hfrom]
    exact runOn_then (runOn_then hplaced rfl) rfl
  have hmark : runOn (accept .comma) c s₁ = (.ok false, s₁) := by
    have hat : runOn (at? .comma) c s₁ = (.ok false, s₁) := by
      rw [← hcomma]
      exact runOn_then (runOn_then (runOn_placed? hcurrent) rfl) rfl
    exact runOn_then hat rfl
  intro hrun
  rw [closeHead, runOn_bind_of_ok hname] at hrun
  obtain ⟨_, _, hexpect, -⟩ := of_runOn_bind_ok hrun
  rw [expect, runOn_bind_of_ok hmark] at hexpect
  exact gives_failExpected (P := fun _ => False) c s₁ _ _ hexpect

theorem refuses_closeHead (h : Leads x (.string value raw) y) :
    Refuses C c x (closeHead name typeOnly phase) := by
  intro hc m errors s hs
  obtain ⟨p, s', hp, hplaced, hcurrent, -⟩ := hs.placed hc h
  exact ne_ok_closeHead hplaced hcurrent (hp ▸ rfl) (hp ▸ rfl)

theorem refuses_phasedHead (h : Leads x (.string value raw) y) (hy : LastGap y) :
    Refuses C c x (phasedHead name typeOnly phase) := by
  refine (Takes.at? h _).refuses fun _ hmul => (Takes.at? h _).refuses fun _ hbrace => ?_
  subst hmul hbrace
  intro hc m errors s hs a s' hrun
  obtain ⟨p, s₁, hp, hplaced, hcurrent, hs₁, -⟩ := hs.placed hc h
  obtain ⟨s₂, hnext, hcurrent₂⟩ := hs₁.next?_end hcurrent h hy
  have hfree : runOn (atFreeWord <&&> notM (atName "from")) c s = (.ok false, s₁) := by
    have hfree : runOn atFreeWord c s = (.ok false, s₁) := by
      refine runOn_then runOn_context (runOn_then (runOn_then hplaced rfl) ?_)
      rw [Option.map_some, hp]
      rfl
    exact runOn_then hfree rfl
  have hfollows : runOn ((atFreeWord <&&> notM (atName "from")) <||> nextIs (isName "from")) c s =
      (.ok false, s₂) := runOn_then hfree (runOn_then hnext rfl)
  change runOn (((atFreeWord <&&> notM (atName "from")) <||> nextIs (isName "from")) >>= _) c s = _
    at hrun
  rw [runOn_bind_of_ok hfollows] at hrun
  exact ne_ok_closeHead (runOn_placed? hcurrent₂) hcurrent₂ (hp ▸ rfl) (hp ▸ rfl) a s' hrun

theorem refuses_valueHead (h : Leads x (.string value raw) y) (hy : LastGap y) :
    Refuses C c x (valueHead name typeOnly) := by
  refine (takes_noEquals h rfl).refuses fun equals hequals => ?_
  subst hequals
  change Refuses C c x (if isNamed "source" name = true then _ else _)
  split
  · exact refuses_phasedHead h hy
  · split
    · exact refuses_phasedHead h hy
    · exact refuses_closeHead h

theorem refuses_headAfter (h : Leads x (.string value raw) y) (hy : LastGap y) :
    Refuses C c x (headAfter name) := by
  refine (Takes.at? h _).refuses fun _ hmul => (Takes.at? h _).refuses fun _ hbrace => ?_
  subst hmul hbrace
  refine Takes.typed.refuses fun types _ => ?_
  split
  · refine (Takes.atFreeWord h).refuses fun _ hfree => ?_
    subst hfree
    exact refuses_valueHead h hy
  · exact refuses_valueHead h hy

theorem refuses_headAfter_type (hd : d.types = true) (hname : IsLeaf (.name (text "type")) name)
    (hn : Declarable n) (hfrom : n ≠ text "from") (h : Leads x (wordToken n) y)
    (hvalue : ∀ other, Refuses C (moduleContext d) y (valueHead other true)) :
    Refuses C (moduleContext d) x (headAfter name) := by
  refine (Takes.at? h _).refuses fun _ hmul => (Takes.at? h _).refuses fun _ hbrace => ?_
  subst hmul hbrace
  refine Takes.typed.refuses fun _ htyped => ?_
  have hmarked : ((moduleContext d).dialect.types && isNamed "type" name) = true := by
    rw [isNamed_of_isLeaf hname]
    simpa [moduleContext] using hd
  subst htyped
  rw [hmarked, isMark_wordToken, isMark_wordToken]
  refine (Takes.atFreeWord h).refuses fun _ hfree => ?_
  rw [hn.isFreeWord] at hfree
  subst hfree
  have hother : isName "from" (some (wordToken n)) = false := by
    simpa [hn.token, isName] using hfrom
  have hat := Takes.atName (C := C) (c := moduleContext d) h "from"
  rw [hother] at hat
  have hfollows : Takes C (moduleContext d) x x (notM (atName "from") <||> nextIs (isName "from"))
      (· = true) := Takes.or_of_true hat.not
  refine hfollows.refuses fun _ hfollows => ?_
  subst hfollows
  exact (takes_importedName hn h).refuses fun other _ => hvalue other

theorem refuses_importHead_word (hn : Declarable n) (h : Leads x (wordToken n) y)
    (hrest : ∀ first, IsLeaf (.name n) first → Refuses C (moduleContext d) y (headAfter first)) :
    Refuses C (moduleContext d) x importHead := by
  rw [importHead_eq]
  refine (Takes.atFreeWord h).refuses fun _ hfree => ?_
  rw [hn.isFreeWord] at hfree
  subst hfree
  exact (takes_importedName hn h).refuses hrest

theorem refuses_importAfter {i : ImportSyntax} (g : Grammar) (start : Nat)
    (htypes : i.typeOnly = true → d.types = true) (hwords : i.headTokens ≠ [])
    (h : Lexes x (i.headTokens ++ [.string value raw]) y) (hy : LastGap y) :
    Refuses C (moduleContext d) x (importAfter g start) := by
  have hword {n z : Text} (hn : Declarable n) (hz : Leads x (wordToken n) z)
      (hrest : ∀ first, IsLeaf (.name n) first → Refuses C (moduleContext d) z (headAfter first)) :
      Refuses C (moduleContext d) x (importAfter g start) := by
    refine (takes_stringPart?_other hz (wordToken_ne_string n)).refuses fun _ hnone => ?_
    subst hnone
    exact (refuses_importHead_word hn hz hrest).first
  obtain ⟨typeOnly, phase, default?, list, raw', value'⟩ := i
  unfold ImportSyntax.headTokens at h hwords
  dsimp only at h hwords htypes
  cases typeOnly with
  | false =>
    cases hp : phase.word? with
    | none =>
      rw [hp] at hwords
      exact absurd rfl hwords
    | some p =>
      rw [hp] at h
      obtain ⟨z, hz, _, hsource, rfl⟩ := h
      exact hword (ImportPhase.declarable_of_word? hp).1 hz fun _ _ => refuses_headAfter hsource hy
  | true =>
    cases hp : phase.word? with
    | none =>
      rw [hp] at h
      obtain ⟨z, hz, _, hsource, rfl⟩ := h
      exact hword declarable_type hz fun _ _ => refuses_headAfter hsource hy
    | some p =>
      rw [hp] at h
      obtain ⟨z, hz, z₁, hz₁, _, hsource, rfl⟩ := h
      obtain ⟨hpd, -, hpfrom⟩ := ImportPhase.declarable_of_word? hp
      exact hword declarable_type hz fun _ hfirst =>
        refuses_headAfter_type (htypes rfl) hfirst hpd hpfrom hz₁ fun _ =>
          refuses_valueHead hsource hy

theorem refuses_moduleTree {i : ImportSyntax} (htypes : i.typeOnly = true → d.types = true)
    (hwords : i.headTokens ≠ []) {w : Text} (himport : Leads x (wordToken (text "import")) w)
    (h : Lexes w (i.headTokens ++ [.string value raw]) y) (hy : LastGap y) :
    Refuses C (moduleContext d) x moduleTree := by
  have hitem (g : Grammar) : Refuses C (moduleContext d) x (moduleItemOf g) := by
    obtain ⟨n, ts, hts⟩ := i.exists_of_headTokens_ne_nil hwords
    obtain ⟨z, hz, -⟩ : Lexes w (wordToken n :: (ts ++ [.string value raw])) y := by rwa [hts] at h
    refine (Takes.atKeyword himport _).refuses fun _ hb => ?_
    subst hb
    refine (Takes.here himport).refuses fun start _ => ?_
    refine (Takes.nextIs himport hz _).refuses fun _ hcall => ?_
    rw [isMark_wordToken, isMark_wordToken] at hcall
    subst hcall
    exact (Takes.advance himport).refuses fun _ _ => refuses_importAfter g start htypes hwords h hy
  refine Takes.get.refuses fun s _ => (Takes.here himport).refuses fun start _ => ?_
  refine (Takes.token? himport).refuses fun _ ht => ?_
  subst ht
  refine Takes.refuses (.pure rfl) fun hashbang _ => Refuses.first (Refuses.iterate ?_)
  refine (Takes.token? himport).refuses fun _ ht => ?_
  subst ht
  exact (Refuses.within id (hitem _)).first

end Parse

end InlineTemplates.Script
