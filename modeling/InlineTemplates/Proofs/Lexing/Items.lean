import InlineTemplates.Proofs.Lexing.Words
import InlineTemplates.Proofs.Reading

/-! # Items in a row

A module is its items one after the other. A text on which the rule for items reads one tree after
another, up to the end, is read as the module of these trees. -/

namespace InlineTemplates.Script

open Parse (Takes Faces moduleItemOf)

variable {d : Dialect} {x y z : Text} {tree : Tree} {trees : List Tree}

/-- The rule for items reads the tree and leaves the other text, in each grammar that is deep enough
for the text. -/
structure ReadsItem (d : Dialect) (x : Text) (tree : Tree) (y : Text) : Prop where
  starts : ∃ t w, Leads x t w
  shorter : y.length < x.length
  takes (n : Nat) (hn : 8 * x.length ≤ n) :
    Takes (fun _ => True) (moduleContext d) x y (moduleItemOf (.ofDepth n)) tree.Is

/-- The rule for items reads the trees one after the other and leaves the other text. -/
def ReadsItems (d : Dialect) : Text → List Tree → Text → Prop
  | x, [], y => x = y
  | x, tree :: trees, y => ∃ z, ReadsItem d x tree z ∧ ReadsItems d z trees y

theorem readsItems_append {us : List Tree} :
    ReadsItems d x (trees ++ us) y ↔ ∃ z, ReadsItems d x trees z ∧ ReadsItems d z us y := by
  induction trees generalizing x with
  | nil => exact ⟨fun h => ⟨x, rfl, h⟩, fun ⟨_, h, h'⟩ => h ▸ h'⟩
  | cons t ts ih =>
    simp only [List.cons_append, ReadsItems, ih]
    constructor
    · rintro ⟨w, hw, z, hz, hrest⟩
      exact ⟨z, ⟨w, hw, hz⟩, hrest⟩
    · rintro ⟨z, ⟨w, hw, hz⟩, hrest⟩
      exact ⟨w, hw, z, hz, hrest⟩

theorem ReadsItems.length_le (h : ReadsItems d x trees y) : trees.length + y.length ≤ x.length := by
  induction trees generalizing x with
  | nil =>
    cases h
    exact Nat.le_of_eq (Nat.zero_add _)
  | cons t ts ih =>
    obtain ⟨z, hitem, hrest⟩ := h
    have hshorter := hitem.shorter
    have htail := ih hrest
    simp only [List.length_cons]
    omega

theorem Spelled.ne_hashbang {w : Text} {t : Token} (h : Spelled y t w) (content : Text) :
    t ≠ .hashbang content := by
  cases h with
  | word _ _ =>
    obtain ⟨k, h, -⟩ | h := wordToken_cases w <;> rw [h] <;> exact fun h => nomatch h
  | _ => exact fun h => nomatch h

theorem ReadsItems.shows (h : ReadsItems d x trees y) (hy : LastGap y) :
    ∃ t?, Parse.Shows x t? ∧ ∀ content, t? ≠ some (.hashbang content) := by
  cases trees with
  | nil =>
    obtain rfl := h
    exact ⟨none, hy, fun _ => nofun⟩
  | cons tree trees =>
    obtain ⟨z, ⟨⟨t, w, ht⟩, -, -⟩, -⟩ := h
    refine ⟨some t, .of_leads ht, fun content heq => ?_⟩
    obtain ⟨gap, v, -, hv, -⟩ := ht
    exact hv.ne_hashbang content (Option.some.inj heq)

namespace Parse

def itemStep (item : Parse Tree) (found : List Tree × Bool) :
    Parse (List Tree × Bool ⊕ List Tree) := do
  let t ← token?
  if t.isNone then return .inr found.1.reverse
  let i ← within (fun c => { c with strict := c.strict || found.2 }) item
  return .inl (i :: found.1, found.2 || (found.1.isEmpty && isUseStrict i))

theorem itemsUntilEnd_eq (item : Parse Tree) :
    itemsUntilEnd item true false = iterate ([], false) (itemStep item) := rfl

theorem takes_itemSteps (h : ReadsItems d x trees y) (hy : LastGap y) {k : Nat}
    (hk : 8 * x.length ≤ k) (m : Nat) (found : List Tree × Bool) :
    Takes (fun _ => True) (moduleContext d) x []
      (iterateUpTo (itemStep (moduleItemOf (.ofDepth k))) (m + trees.length + 1) found)
      fun items => items.map Tree.eraseSpans = found.1.reverse.map Tree.eraseSpans ++ trees := by
  induction trees generalizing x found with
  | nil =>
    obtain rfl := h
    refine Takes.andThen (y := []) (a := .inr found.1.reverse) ?_ (.pure (by simp))
    exact (Takes.token?_end hy).andThen (.taken (.pure rfl))
  | cons tree trees ih =>
    obtain ⟨z, hitem, hrest⟩ := h
    obtain ⟨t, w, ht⟩ := hitem.starts
    have hshorter := hitem.shorter
    refine Takes.bind (y := z) (P := fun r : List Tree × Bool ⊕ List Tree =>
      ∃ i strict, r = .inl (i :: found.1, strict) ∧ tree.Is i) ?_ ?_
    · refine (Takes.token? ht).andThen (.otherwise ?_)
      -- Code of a module is strict before any directive.
      refine (Takes.within id (hitem.takes k hk)).bind fun i hi => ?_
      exact .pure ⟨i, _, rfl, hi⟩
    · rintro _ ⟨i, strict, rfl, hi⟩
      have hlater := ih hrest (by omega) (i :: found.1, strict)
      rw [List.length_cons, ← Nat.add_assoc]
      refine hlater.mono fun items hitems => ?_
      rw [hitems, List.reverse_cons, List.map_append, List.append_assoc, List.map_singleton, hi]
      rfl

theorem takes_items (h : ReadsItems d x trees y) (hy : LastGap y) {k : Nat}
    (hk : 8 * x.length ≤ k) : Takes (fun _ => True) (moduleContext d) x []
      (itemsUntilEnd (moduleItemOf (.ofDepth k)) true false) (·.map Tree.eraseSpans = trees) :=
  Takes.iterate (by have := h.length_le; omega) fun m => takes_itemSteps h hy hk m ([], false)

theorem faces_lexer_startOf (x : Text) : (startOf x).lexer.Faces x x.length [] := by
  refine ⟨rfl, rfl, ?_, Nat.add_sub_cancel_left 1 _, Nat.le_refl _, Nat.add_comm 1 _, rfl⟩
  simp [Lexer.Calm, startOf, Lexer.ofSource, Enclosure.isCalm]

theorem faces_startOf {C : Context → Prop} (x : Text) : Faces C x x.length [] (startOf x) :=
  faces_of_lexer (faces_lexer_startOf x) (.fresh rfl rfl rfl) (faces_lexer_startOf x).size

end Parse

/-! ## The first line -/

/-- The text starts with a line that names this interpreter, if one is named, and the rule for items
reads the trees behind it and leaves the other text. -/
def ReadsModule (d : Dialect) (x : Text) : Option Text → List Tree → Text → Prop
  | none, trees, y => ReadsItems d x trees y
  | some content, trees, y => ∃ z, x = '#' :: '!' :: (content ++ z) ∧
      (∀ ch ∈ content, Text.isLineEnd ch = false) ∧ z.head?.all Text.isLineEnd = true ∧
      ReadsItems d z trees y

theorem ReadsModule.append {hashbang : Option Text} {us : List Tree}
    (h : ReadsModule d x hashbang trees y) (h' : ReadsItems d y us z) :
    ReadsModule d x hashbang (trees ++ us) z := by
  cases hashbang with
  | none => exact readsItems_append.mpr ⟨y, h, h'⟩
  | some content =>
    obtain ⟨w, hx, hcontent, hw, hitems⟩ := h
    exact ⟨w, hx, hcontent, hw, readsItems_append.mpr ⟨y, hitems, h'⟩⟩

theorem Lexer.next_of_hashbang {l : Lexer} {c : Context} {content : Text} {n : Nat}
    {errors : List SyntaxError} (hl : l.Faces ('#' :: '!' :: (content ++ z)) n errors)
    (hstart : l.atStart = true) (hcontent : ∀ ch ∈ content, Text.isLineEnd ch = false)
    (hz : z.head?.all Text.isLineEnd = true) :
    ∃ span lineBreak l', l.next c = (some ⟨.hashbang content, span, lineBreak⟩, l') ∧
      l'.Faces z n errors := by
  let l₁ : Lexer := { l with tokenStart := l.position }
  have hrest : (l₁.skip 2).rest = content ++ z := rest_skip_of_append (t := ['#', '!']) hl.rest rfl
  have hrun : Read.runOn Read.nextToken c l =
      (.ok (some (.hashbang content)), (l₁.skip 2).skip content.length) := by
    have hline : Read.runOn (Read.takeWhile fun ch => !Text.isLineEnd ch) c (l₁.skip 2) =
        (.ok content, (l₁.skip 2).skip content.length) := by
      have htaken : Read.runOn (Read.takeWhile fun ch => !Text.isLineEnd ch) c (l₁.skip 2) =
          (.ok ((l₁.skip 2).rest.takeWhile fun ch => !Text.isLineEnd ch),
            (l₁.skip 2).skip ((l₁.skip 2).rest.takeWhile fun ch => !Text.isLineEnd ch).length) := rfl
      rw [htaken, hrest, takeWhile_line hcontent hz]
    have hfound : Read.runOn Read.hashbang? c l₁ =
        (.ok (some (.hashbang content)), (l₁.skip 2).skip content.length) := by
      refine Read.runOn_then Read.runOn_lexer ?_
      rw [show l₁.rest = _ from hl.rest]
      exact Read.runOn_then rfl (Read.runOn_then hline rfl)
    unfold Read.nextToken
    refine Read.runOn_then rfl (Read.runOn_then Read.runOn_lexer ?_)
    rw [hl.regexFrom]
    refine Read.runOn_then rfl ?_
    rw [if_pos hstart]
    exact Read.runOn_then hfound rfl
  have hfits := hl.fits
  simp only [List.length_cons, List.length_append] at hfits
  exact ⟨_, _, _, Lexer.next_of_runOn hrun, {
    rest := rest_skip_of_append hrest rfl
    regexFrom := hl.regexFrom
    calm := hl.calm
    size := hl.size
    fits := by omega
    place := by
      have hplace : ((l₁.skip 2).skip content.length).position +
          ((l₁.skip 2).skip content.length).rest.length = l.position + l.rest.length := by
        rw [position_add_length_skip, position_add_length_skip]
      rw [rest_skip_of_append hrest rfl, hl.rest, hl.place] at hplace
      exact hplace
    errors := hl.errors }⟩

namespace Parse

theorem takes_moduleItems (hashbang : Option Text) (start : Nat) (h : ReadsItems d x trees y)
    (hy : LastGap y) {k : Nat} (hk : 8 * x.length ≤ k) :
    Takes (fun _ => True) (moduleContext d) x [] (do
      let items ← itemsUntilEnd (moduleItemOf (.ofDepth k)) true false
      return .node (.module hashbang) (← spanFrom start) items)
      (Tree.Is (.node (.module hashbang) .nowhere trees)) := by
  refine (takes_items h hy hk).bind fun items hitems => ?_
  exact (Takes.spanFrom _).before fun span => .pure (.node hitems)

theorem runOn_moduleTree {hashbang : Option Text} (h : ReadsModule d x hashbang trees y)
    (hy : LastGap y) :
    ∃ tree s, runOn moduleTree (moduleContext d) (startOf x) = (.ok tree, s) ∧
      Tree.Is (.node (.module hashbang) .nowhere trees) tree ∧
      Faces (fun _ => True) [] x.length [] s := by
  have hdeep : 8 * x.length ≤ 8 * x.length + 15 := Nat.le_add_right _ _
  unfold moduleTree
  rw [runOn_bind_of_ok runOn_get]
  cases hashbang with
  | none =>
    obtain ⟨t?, hx, hnot⟩ := h.shows hy
    refine (?_ : Takes (fun _ => True) (moduleContext d) x [] _ _) trivial _ _ _ (faces_startOf x)
    refine hx.here.before fun start => hx.token?.andThen ?_
    dsimp only
    split
    · next content => exact absurd rfl (hnot content)
    · exact Takes.andThen (.pure rfl) (takes_moduleItems none start h hy hdeep)
  | some content =>
    obtain ⟨z, rfl, hcontent, hz, hitems⟩ := h
    let source : Text := '#' :: '!' :: (content ++ z)
    obtain ⟨span, lineBreak, l, hnext, hl'⟩ :=
      Lexer.next_of_hashbang (c := moduleContext d) (faces_lexer_startOf source) rfl hcontent hz
    have hplaced := runOn_placed?_of_next (s := startOf source) rfl rfl hnext
    let t : PlacedToken := ⟨.hashbang content, span, lineBreak⟩
    let seen : ParseState := { startOf source with current := some t, lexer := l }
    let behind : ParseState := { startOf source with lexer := l, previous := span }
    have hlength : 8 * z.length ≤ 8 * source.length + 15 := by
      simp only [source, List.length_cons, List.length_append]
      omega
    obtain ⟨tree, s, hrun, htree, hs⟩ := takes_moduleItems (some content) span.lo hitems hy
      hlength trivial source.length [] behind
      (faces_of_lexer hl' (.fresh rfl rfl rfl) hl'.size)
    refine ⟨tree, s, ?_, htree, hs⟩
    have hadvance : runOn advance (moduleContext d) seen = (.ok (), behind) :=
      runOn_advance (t := t) (s := seen) rfl
    refine runOn_then (runOn_here hplaced) (runOn_then (runOn_token? (runOn_placed? rfl)) ?_)
    exact runOn_then hadvance (runOn_then (runOn_pure _) hrun)

end Parse

/-- A text of items is read as the module of these items. -/
theorem ofSource?_module {hashbang : Option Text} (h : ReadsModule d x hashbang trees y)
    (hy : LastGap y) (hmark : withoutMark x = x) :
    ∃ program, Program.ofSource? d x = .ok program ∧ program.source = x ∧
      program.tree.eraseSpans = .node (.module hashbang) .nowhere trees := by
  obtain ⟨tree, s, hrun, htree, hs⟩ := Parse.runOn_moduleTree h hy
  refine ⟨⟨x, tree, s.lexer.record.comments⟩, ?_, rfl, htree⟩
  unfold Program.ofSource?
  rw [hmark]
  change (Parse.onSource Parse.moduleTree (moduleContext d) x >>= _) = _
  rw [Parse.onSource_of_runOn hrun hs.at_end.2]
  rfl

end InlineTemplates.Script
