import InlineTemplates.Proofs.ImportText.Syntax

/-! # The names in imports as they are read

Each rule for names and lists of names, on the tokens that spell what it reads. -/

namespace InlineTemplates.Script

def IsName? : Option Text → Option Tree → Prop
  | none, t => t = none
  | some n, t => ∃ name, t = some name ∧ IsLeaf (.name n) name

namespace Parse

variable {C : Context → Prop} {c : Context} {d : Dialect} {x y z : Text} {t : Token} {n : Text}

theorem takes_importedName (hn : Declarable n) (h : Leads x (wordToken n) y) :
    Takes C (moduleContext d) x y importedName (IsLeaf (.name n)) :=
  .within id (takes_declaredPlainName hn h)

theorem takes_specifier {value raw : Text} (h : Leads x (.string value raw) y) :
    Takes C c x y specifier (IsLeaf (.string value (some raw))) := by
  refine (takes_someToken h).andThen ((takes_stringPart? h).bind ?_)
  rintro _ ⟨s, rfl, hs⟩
  exact .pure hs

theorem takes_exportName {e : Exported} (h : Leads x e.token y) :
    Takes C c x y exportName (IsLeaf e.kind) := by
  cases e with
  | word n =>
    refine (takes_stringPart?_other h (wordToken_ne_string n)).andThen ((Takes.atWord h).andThen ?_)
    rw [Exported.token, isWord_wordToken]
    exact .taken (takes_anyName h)
  | string raw value =>
    refine (takes_stringPart? h).bind ?_
    rintro _ ⟨s, rfl, hs⟩
    exact .pure hs

/-! ## Names in braces -/

theorem isName_of_isWord {name : String} (h : isWord (some t) = false) :
    isName name (some t) = false := by
  cases t <;> first | rfl | cases h

theorem isAs_token : isName "as" (some (wordToken (text "as"))) = true := by decide

theorem takes_isTypeWord {first : Tree} (hfirst : IsLeaf (.name n) first) (h : Leads x t y) :
    Takes C (moduleContext d) x x (isTypeWord first)
      (· = (n == text "type" && d.types && isWord (some t))) := by
  obtain ⟨span, rfl⟩ := hfirst
  unfold isTypeWord
  change Takes C _ x x (if n == text "type" then typed <&&> atWord else pure false) _
  cases htype : n == text "type" with
  | false => exact .pure rfl
  | true =>
    refine .taken ?_
    have htyped : Takes C (moduleContext d) x x typed (· = d.types) := Takes.typed
    cases hd : d.types with
    | false =>
      rw [hd] at htyped
      exact htyped.and_of_false
    | true =>
      rw [hd] at htyped
      exact htyped.and_of_true (Takes.atWord h)

theorem takes_alias {i : NamedImport} {typeOnly : Bool} (hi : i.Legal d typeOnly) {start : Nat}
    {taken : Tree} (htaken : IsLeaf i.imported.kind taken)
    (h : Lexes x (NamedImport.aliasTokens i.alias?) y) (hafter : Leads y t z)
    (ht : isWord (some t) = false) :
    Takes C (moduleContext d) x y (do
      if ← acceptName "as" then
        let l ← declaredPlainName false
        return .ofPart (.importNamed i.typeOnly) ⟨start, l.span.hi⟩ [l, taken]
      return .ofPart (.importNamed i.typeOnly) (← spanFrom start) [taken, .absent]) i.tree.Is := by
  obtain ⟨imported, alias?, typeMark⟩ := i
  obtain ⟨span, rfl⟩ := htaken
  cases alias? with
  | none =>
    obtain rfl := h
    refine (Takes.acceptName_other hafter (isName_of_isWord ht)).andThen (.otherwise ?_)
    exact (Takes.spanFrom _).before fun _ => .pure rfl
  | some l =>
    obtain ⟨w, has, v, hl, rfl⟩ := h
    refine (Takes.acceptName has isAs_token).andThen (.taken ?_)
    refine (takes_declaredPlainName (hi.2.1 l rfl) hl).bind ?_
    rintro _ ⟨span, rfl⟩
    exact .pure rfl

theorem declarable_as : Declarable (text "as") := by decide

theorem takes_afterTypeWord_renamed {first : Tree} {l : Text} {inTypeOnly : Parse Unit}
    (hl : Declarable l) (h : Lexes x [wordToken (text "as"), wordToken l] y) (hafter : Leads y t z)
    (ht : isWord (some t) = false) :
    Takes C (moduleContext d) x y (afterTypeWord first (declaredPlainName false) inTypeOnly)
      fun w => w.taken = first ∧ w.typeOnly = false ∧ w.stop.isSome = true ∧
        ∃ other, w.alias? = some other ∧ IsLeaf (.name l) other := by
  obtain ⟨w, has, _, hl', rfl⟩ := h
  unfold afterTypeWord
  refine (takes_anyName has).bind ?_
  rintro _ ⟨span, rfl⟩
  refine .otherwise ((Takes.atWord hl').andThen ?_)
  rw [isWord_wordToken]
  refine .otherwise ((takes_declaredPlainName hl hl').bind ?_)
  rintro _ ⟨span', rfl⟩
  change Takes C _ _ _ (if (!(l == text "as")) = true then _ else _) _
  cases l == text "as" with
  | false => exact .taken (.pure ⟨rfl, rfl, rfl, _, rfl, span', rfl⟩)
  | true =>
    refine .otherwise ((Takes.atWord hafter).andThen ?_)
    rw [ht]
    exact .otherwise (.pure ⟨rfl, rfl, rfl, _, rfl, span', rfl⟩)

theorem takes_afterTypeWord_marked {first : Tree} (hn : n ≠ text "as") (h : Leads x (wordToken n) y) :
    Takes C c x y (afterTypeWord first (declaredPlainName false) (pure ()))
      fun w => IsLeaf (.name n) w.taken ∧ w.alias? = none ∧ w.typeOnly = true ∧ w.stop = none := by
  unfold afterTypeWord
  refine (takes_anyName h).bind ?_
  rintro _ ⟨span, rfl⟩
  change Takes C _ _ _ (if (!(n == text "as")) = true then _ else _) _
  rw [beq_false_of_ne hn]
  exact .taken (.pure ⟨⟨span, rfl⟩, rfl, rfl, rfl⟩)

theorem takes_afterTypeWord_as {first : Tree} {other? : Option Text}
    (hother : ∀ l ∈ other?, Declarable l)
    (h : Lexes x (wordToken (text "as") :: NamedImport.aliasTokens other?) y) (hafter : Leads y t z)
    (ht : isWord (some t) = false) :
    Takes C (moduleContext d) x y (afterTypeWord first (declaredPlainName false) (pure ()))
      fun w => IsLeaf (.name (text "as")) w.taken ∧ w.typeOnly = true ∧ w.stop.isSome = true ∧
        IsName? other? w.alias? := by
  obtain ⟨w, has, hrest⟩ := h
  unfold afterTypeWord
  refine (takes_anyName has).bind ?_
  rintro _ ⟨span, rfl⟩
  refine .otherwise ?_
  cases other? with
  | none =>
    obtain rfl := hrest
    refine (Takes.atWord hafter).andThen ?_
    rw [ht]
    refine .taken (Takes.andThen (.pure rfl) (Takes.lastEnd.before fun _ => ?_))
    exact .pure ⟨⟨span, rfl⟩, rfl, rfl, rfl⟩
  | some l =>
    obtain ⟨v, has', _, hl, rfl⟩ := hrest
    refine (Takes.atWord has').andThen (.otherwise ?_)
    refine (takes_declaredPlainName declarable_as has').bind ?_
    rintro _ ⟨span', rfl⟩
    refine .otherwise ((Takes.atWord hl).andThen ?_)
    rw [isWord_wordToken]
    refine .taken ((takes_declaredPlainName (hother l rfl) hl).bind ?_)
    rintro _ ⟨span'', rfl⟩
    exact .pure ⟨⟨span, rfl⟩, rfl, rfl, _, rfl, span'', rfl⟩

theorem takes_importSpecifier {i : NamedImport} {typeOnly : Bool} (hi : i.Legal d typeOnly)
    (h : Lexes x i.tokens y) (hafter : Leads y t z) (ht : isWord (some t) = false) :
    Takes C (moduleContext d) x y (importSpecifier typeOnly) i.tree.Is := by
  obtain ⟨imported, alias?, typeMark⟩ := i
  unfold importSpecifier
  cases typeMark with
  | false =>
    obtain ⟨_, hw, hrest⟩ : Lexes x (imported.token :: NamedImport.aliasTokens alias?) y := h
    refine (Takes.here hw).before fun start => (takes_exportName hw).bind fun first hfirst => ?_
    obtain ⟨span, rfl⟩ := hfirst
    cases imported with
    | string raw value =>
      obtain ⟨l, rfl⟩ := Option.isSome_iff_exists.mp hi.1.2.1
      obtain ⟨w, has, v, hl, rfl⟩ := hrest
      refine (Takes.acceptName has isAs_token).andThen (.taken ?_)
      refine (takes_declaredPlainName (hi.2.1 l rfl) hl).bind ?_
      rintro _ ⟨span, rfl⟩
      exact .pure rfl
    | word n =>
      cases alias? with
      | none => 
        obtain rfl := hrest
        refine (takes_isTypeWord ⟨span, rfl⟩ hafter).andThen ?_
        rw [ht, Bool.and_false]
        exact .otherwise (takes_alias hi ⟨span, rfl⟩ rfl hafter ht)
      | some l =>
        obtain ⟨v, has, hl⟩ := id hrest
        refine (takes_isTypeWord ⟨span, rfl⟩ has).andThen ?_
        rw [isWord_wordToken, Bool.and_true]
        cases htype : n == text "type" && d.types with
        | false => exact .otherwise (takes_alias hi ⟨span, rfl⟩ hrest hafter ht)
        | true =>
          refine .taken ((takes_afterTypeWord_renamed (hi.2.1 l rfl) hrest hafter ht).bind ?_)
          rintro ⟨taken, alias?, typeOnly', stop⟩ ⟨rfl, rfl, hstop, other, rfl, span', rfl⟩
          obtain ⟨stop, rfl⟩ := Option.isSome_iff_exists.mp hstop
          exact .pure rfl
  | true => 
    obtain ⟨hd, rfl⟩ := hi.2.2 rfl
    cases imported with
    | string raw value => cases hi.1.2.2
    | word n =>
    obtain ⟨x₁, htype, x₂, hn, hrest⟩ := id h
    refine (Takes.here htype).before fun start =>
      (takes_exportName (e := .word (text "type")) htype).bind ?_
    rintro _ ⟨span, rfl⟩
    refine (takes_isTypeWord ⟨span, rfl⟩ hn).andThen ?_
    rw [hd]
    change Takes C _ _ _ (if (text "type" == text "type" && true && isWord (some (wordToken n))) = true
      then _ else _) _
    rw [isWord_wordToken]
    by_cases has : n = text "as"
    · subst has
      refine .taken ((takes_afterTypeWord_as hi.2.1 ⟨x₂, hn, hrest⟩ hafter ht).bind ?_)
      rintro ⟨taken, other?, typeOnly', stop⟩ ⟨⟨span, rfl⟩, rfl, hstop, hother⟩
      obtain ⟨stop, rfl⟩ := Option.isSome_iff_exists.mp hstop
      cases alias? with
      | none =>
        obtain rfl := hother
        exact .pure rfl
      | some l =>
        obtain ⟨_, rfl, span', rfl⟩ := hother
        exact .pure rfl
    · refine .taken ((takes_afterTypeWord_marked has hn).bind ?_)
      rintro ⟨taken, other?, typeOnly', stop⟩ ⟨⟨span, rfl⟩, rfl, rfl, rfl⟩
      exact takes_alias hi ⟨span, rfl⟩ hrest hafter ht

theorem NamedImport.leads {i : NamedImport} (h : Lexes x i.tokens y) :
    ∃ t z, Leads x t z ∧ ∀ m, isMark m (some t) = false := by
  obtain ⟨imported, alias?, typeMark⟩ := i
  cases typeMark with
  | true =>
    obtain ⟨z, hz, -⟩ := h
    exact ⟨_, z, hz, isMark_wordToken _⟩
  | false =>
    obtain ⟨z, hz, -⟩ := h
    refine ⟨_, z, hz, fun m => ?_⟩
    cases imported with
    | word n => exact isMark_wordToken n m
    | string raw value => rfl

def nameStep (one : Parse Tree) (acc : List Tree) : Parse (List Tree ⊕ List Tree) := do
  if (← Parse.atEnd) || (← Parse.at? .braceClose) then return .inr acc.reverse
  let name ← one
  if !(← Parse.at? .braceClose) then Parse.expect .comma
  return .inl (name :: acc)

theorem takes_names {typeOnly comma : Bool} {names : List NamedImport}
    (hlegal : ∀ i ∈ names, i.Legal d typeOnly)
    (h : Lexes x (ImportList.namesTokens comma names) y) (hclose : Leads y (.mark .braceClose) z)
    (m : Nat) (acc : List Tree) :
    Takes C (moduleContext d) x y
      (iterateUpTo (nameStep (importSpecifier typeOnly)) (m + names.length + 1) acc)
      fun found => found.map Tree.eraseSpans =
        acc.reverse.map Tree.eraseSpans ++ names.map NamedImport.tree := by
  induction names generalizing x acc with
  | nil =>
    obtain rfl := h
    refine Takes.andThen (y := x) (a := .inr acc.reverse) ?_ (.pure ?_)
    · exact (Takes.atEnd hclose).andThen ((Takes.at? hclose _).andThen (.taken (.pure rfl)))
    · simp
  | cons i more ih =>
    obtain ⟨x₂, hfirst, hmore⟩ := lexes_append.mp h
    obtain ⟨x₁, hi, hcomma⟩ := lexes_append.mp hfirst
    have hone : Takes C (moduleContext d) x x₂ (nameStep (importSpecifier typeOnly) acc)
        fun r => ∃ tree, r = .inl (tree :: acc) ∧ i.tree.Is tree := by
      obtain ⟨t, w, hw, ht⟩ := NamedImport.leads hi
      refine (Takes.atEnd hw).andThen ((Takes.at? hw _).andThen ?_)
      rw [ht]
      refine .otherwise ?_
      cases hlast : !more.isEmpty || comma with
      | true =>
        rw [hlast] at hcomma
        obtain ⟨_, hcomma, rfl⟩ := hcomma
        refine (takes_importSpecifier (hlegal i List.mem_cons_self) hi hcomma rfl).bind ?_
        intro tree htree
        refine (Takes.at? hcomma _).andThen (.taken ?_)
        exact (Takes.expect hcomma).before fun _ => .pure ⟨tree, rfl, htree⟩
      | false =>
        rw [hlast] at hcomma
        obtain ⟨hmoreEmpty, rfl⟩ : more.isEmpty = true ∧ comma = false := by simpa using hlast
        obtain rfl := List.isEmpty_iff.mp hmoreEmpty
        obtain rfl := hcomma
        obtain rfl := hmore
        refine (takes_importSpecifier (hlegal i List.mem_cons_self) hi hclose rfl).bind ?_
        intro tree htree
        refine (Takes.at? hclose _).andThen (.otherwise ?_)
        exact Takes.andThen (.pure rfl) (.pure ⟨tree, rfl, htree⟩)
    refine hone.bind ?_
    rintro _ ⟨tree, rfl, htree⟩
    refine (ih (fun j hj => hlegal j (List.mem_cons_of_mem _ hj)) hmore (tree :: acc)).mono ?_
    intro found hfound
    rw [hfound, List.reverse_cons, List.map_append, List.append_assoc]
    exact congrArg _ (congrArg (· :: _) htree)

theorem names_length_le {comma : Bool} {names : List NamedImport}
    (h : Lexes x (ImportList.namesTokens comma names) y) : names.length ≤ x.length := by
  have htokens : names.length ≤ (ImportList.namesTokens comma names).length := by
    induction names generalizing x with
    | nil => exact Nat.zero_le _
    | cons i more ih =>
      obtain ⟨x₂, -, hmore⟩ := lexes_append.mp h
      have := ih hmore
      simp only [ImportList.namesTokens, NamedImport.tokens, List.length_append, List.length_cons]
      omega
  have := h.length_le
  omega

theorem takes_namesInBraces {typeOnly comma : Bool} {names : List NamedImport}
    (hlegal : ∀ i ∈ names, i.Legal d typeOnly)
    (h : Lexes x (ImportList.named names comma).tokens y) :
    Takes C (moduleContext d) x y (namesInBraces (importSpecifier typeOnly))
      fun found => found.map Tree.eraseSpans = names.map NamedImport.tree := by
  obtain ⟨x₁, hopen, hrest⟩ := h
  obtain ⟨x₂, hnames, _, hclose, rfl⟩ := lexes_append.mp hrest
  refine (Takes.expect hopen).before fun _ => ?_
  refine (Takes.iterate (names_length_le hnames) fun m => takes_names hlegal hnames hclose m []).bind
    fun found hfound => ?_
  exact (Takes.expect hclose).before fun _ => .pure hfound

/-! ## Lists -/

theorem declarable_from : Declarable (text "from") := by decide

theorem isFrom_token : isName "from" (some (wordToken (text "from"))) = true := by decide

theorem takes_importList {typeOnly : Bool} {list : ImportList} (hlegal : list.Legal d typeOnly)
    (h : Lexes x list.tokens y) (hfrom : Leads y (wordToken (text "from")) z) :
    Takes C (moduleContext d) x y (importList typeOnly)
      fun found => found.map Tree.eraseSpans = list.trees := by
  cases list with
  | none =>
    obtain rfl := h
    refine (Takes.here hfrom).before fun _ => ?_
    refine (Takes.accept_other hfrom rfl).andThen (.otherwise ?_)
    refine (Takes.at? hfrom _).andThen (.otherwise (.pure rfl))
  | all n =>
    obtain ⟨x₁, hstar, x₂, has, _, hn, rfl⟩ := h
    refine (Takes.here hstar).before fun _ => (Takes.accept hstar).andThen (.taken ?_)
    refine (Takes.expectName has isAs_token).before fun _ => ?_
    refine (takes_importedName hlegal hn).bind ?_
    rintro _ ⟨span, rfl⟩
    exact (Takes.spanFrom _).before fun _ => .pure rfl
  | named names comma =>
    obtain ⟨x₁, hopen, -⟩ := id h
    refine (Takes.here hopen).before fun _ => ?_
    refine (Takes.accept_other hopen rfl).andThen (.otherwise ?_)
    refine (Takes.at? hopen _).andThen (.taken ?_)
    exact takes_namesInBraces hlegal h

end Parse
end InlineTemplates.Script
