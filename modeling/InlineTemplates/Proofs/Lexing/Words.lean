import InlineTemplates.Proofs.Erasure
import InlineTemplates.Proofs.Lexing.Steps

/-! # Tokens in a row

A text that starts with several tokens, and the rules for words, names and strings on it. -/

namespace InlineTemplates.Script

/-! ## Texts -/

/-- The text starts with the tokens, and the other text follows. -/
def Lexes : Text → List Token → Text → Prop
  | x, [], y => x = y
  | x, t :: ts, y => ∃ z, Leads x t z ∧ Lexes z ts y

theorem lexes_append {ts us : List Token} {x y : Text} :
    Lexes x (ts ++ us) y ↔ ∃ z, Lexes x ts z ∧ Lexes z us y := by
  induction ts generalizing x with
  | nil => exact ⟨fun h => ⟨x, rfl, h⟩, fun ⟨_, h, h'⟩ => h ▸ h'⟩
  | cons t ts ih =>
    simp only [List.cons_append, Lexes, ih]
    constructor
    · rintro ⟨w, hw, z, hz, hrest⟩
      exact ⟨z, ⟨w, hw, hz⟩, hrest⟩
    · rintro ⟨z, ⟨w, hw, hz⟩, hrest⟩
      exact ⟨w, hw, z, hz, hrest⟩

theorem Spelled.length_pos {y w : Text} {t : Token} (h : Spelled y t w) : 0 < w.length := by
  obtain ⟨ch, rest, rfl, -⟩ := h.cons
  exact Nat.succ_pos _

theorem Lexes.length_le {ts : List Token} {x y : Text} (h : Lexes x ts y) :
    ts.length + y.length ≤ x.length := by
  induction ts generalizing x with
  | nil =>
    cases h
    exact Nat.le_of_eq (Nat.zero_add _)
  | cons t ts ih =>
    obtain ⟨z, ⟨gap, w, -, hw, rfl⟩, hrest⟩ := h
    have htail := ih hrest
    have hfirst := hw.length_pos
    simp only [List.length_cons, List.length_append]
    omega

/-! ## Another line -/

section
variable {x y : Text} {t : Token}

theorem Spelled.line {w : Text} (h : Spelled y t w) (z : Text) : Spelled (y ++ '\n' :: z) t w := by
  have hhead {p : Char → Bool} (hp : p '\n' = true) (hy : y.head?.all p = true) :
      (y ++ '\n' :: z).head?.all p = true := by
    cases y with
    | nil => exact hp
    | cons ch y => exact hy
  cases h with
  | word hn hy => exact .word hn (hhead (by decide) hy)
  | string h => exact .string h
  | mark h => exact .mark h
  | star hy => exact .star (hhead rfl hy)
  | dot hy => exact .dot (hhead rfl hy)
  | assign hy => exact .assign (hhead rfl hy)

theorem Leads.line (h : Leads x t y) (z : Text) : Leads (x ++ '\n' :: z) t (y ++ '\n' :: z) := by
  obtain ⟨gap, w, hgap, hw, rfl⟩ := h
  exact ⟨gap, w, hgap, hw.line z, by simp only [List.append_assoc]⟩

theorem Lexes.line {ts : List Token} (h : Lexes x ts y) (z : Text) :
    Lexes (x ++ '\n' :: z) ts (y ++ '\n' :: z) := by
  induction ts generalizing x with
  | nil => exact congrArg (· ++ '\n' :: z) h
  | cons t ts ih =>
    obtain ⟨w, hw, hrest⟩ := h
    exact ⟨_, hw.line z, ih hrest⟩

end

section
variable {x y : Text} {t : Token} {n : Text}

theorem Leads.length_lt (h : Leads x t y) : y.length < x.length := by
  have hone : Lexes x [t] y := ⟨y, h, rfl⟩
  have hlength := hone.length_le
  rw [List.length_singleton] at hlength
  omega

theorem leads_word (hn : IsWordText n) (hy : EndsWord y) : Leads (n ++ y) (wordToken n) y :=
  ⟨[], n, .nil, .word hn hy, rfl⟩

theorem leads_mark {ch : Char} {m : Mark} (h : Mark.ofChar? ch = some m) (y : Text) :
    Leads (ch :: y) (.mark m) y := ⟨[], [ch], .nil, .mark h, rfl⟩

theorem leads_string {raw value : Text} (h : IsString raw value) (y : Text) :
    Leads (raw ++ y) (.string value raw) y := ⟨[], raw, .nil, .string h, rfl⟩

theorem Gap.cons_blank {gap : Text} (h : Gap gap) : Gap (' ' :: gap) := by
  have hblank : isSpace ' ' = true := by decide
  cases h with
  | blanks hrun => exact .blanks (List.forall_mem_cons.mpr ⟨hblank, hrun⟩)
  | line hrun hcontent hclosed hgap =>
    exact .line (List.forall_mem_cons.mpr ⟨hblank, hrun⟩) hcontent hclosed hgap
  | block hrun hcontent hgap =>
    exact .block (List.forall_mem_cons.mpr ⟨hblank, hrun⟩) hcontent hgap

theorem Leads.blank (h : Leads x t y) : Leads (' ' :: x) t y := by
  obtain ⟨gap, w, hgap, hw, rfl⟩ := h
  exact ⟨' ' :: gap, w, hgap.cons_blank, hw, rfl⟩

theorem Lexes.blank {ts : List Token} (hts : ts ≠ []) (h : Lexes x ts y) :
    Lexes (' ' :: x) ts y := by
  cases ts with
  | nil => exact absurd rfl hts
  | cons t ts =>
    obtain ⟨z, hz, hrest⟩ := h
    exact ⟨z, hz.blank, hrest⟩

theorem endsWord_blank (y : Text) : EndsWord (' ' :: y) := by
  change (!Text.isNamePart ' ' && ' ' != '\\') = true
  decide

theorem endsWord_comma (y : Text) : EndsWord (',' :: y) := by
  change (!Text.isNamePart ',' && ',' != '\\') = true
  decide

end

/-! ## Words -/

theorem Keyword.word_of_ofText? {n : Text} {k : Keyword} (h : Keyword.ofText? n = some k) :
    text k.word = n := by
  obtain ⟨before, after, htable, -⟩ := List.lookup_eq_some_iff.mp h
  have hmem : (n, k) ∈ Keyword.table := htable ▸ List.mem_append_right _ List.mem_cons_self
  obtain ⟨k', -, hk⟩ := List.mem_map.mp hmem
  obtain ⟨hword, rfl⟩ := Prod.mk.inj hk
  exact hword

theorem wordToken_cases (n : Text) :
    (∃ k, wordToken n = .keyword k ∧ text k.word = n) ∨ wordToken n = .name n false := by
  unfold wordToken
  split
  · next k hk => exact .inl ⟨k, rfl, Keyword.word_of_ofText? hk⟩
  · exact .inr rfl

theorem isWord_wordToken (n : Text) : Parse.isWord (some (wordToken n)) = true := by
  obtain ⟨k, h, -⟩ | h := wordToken_cases n <;> rw [h] <;> rfl

theorem isMark_wordToken (n : Text) (m : Mark) : Parse.isMark m (some (wordToken n)) = false := by
  obtain ⟨k, h, -⟩ | h := wordToken_cases n <;> rw [h] <;> rfl

theorem wordToken_ne_string (n value raw : Text) : wordToken n ≠ .string value raw := by
  obtain ⟨k, h, -⟩ | h := wordToken_cases n <;> rw [h] <;> exact fun h => nomatch h

theorem Spelled.not_broken {y w : Text} {t : Token} (h : Spelled y t w) (e : SyntaxError) :
    t ≠ .broken e := by
  cases h with
  | @word n =>
    obtain ⟨k, h, -⟩ | h := wordToken_cases w <;> rw [h] <;> exact fun h => nomatch h
  | _ => exact fun h => nomatch h

/-- A name that strict code may declare. -/
def Declarable (n : Text) : Prop :=
  IsWordText n ∧ Keyword.ofText? n = none ∧ n ≠ text "enum" ∧ n ∉ Parse.strictReserved ∧
    isEvalOrArguments n = false

instance (n : Text) : Decidable (Declarable n) := inferInstanceAs (Decidable (_ ∧ _))

theorem Declarable.token {n : Text} (h : Declarable n) : wordToken n = .name n false := by
  unfold wordToken
  rw [h.2.1]

theorem Declarable.isFreeWord {n : Text} (h : Declarable n) (c : Context) :
    Parse.isFreeWord c (some (wordToken n)) = true := by
  rw [h.token]
  have hstrict : n ∉ Context.strictNames := by
    have hsub : ∀ m ∈ Context.strictNames, m ∈ Parse.strictReserved := by decide
    exact fun hm => h.2.2.2.1 (hsub n hm)
  simp [Parse.isFreeWord, Context.reservesName, hstrict, h.2.2.1]

def moduleContext (dialect : Dialect) : Context :=
  { dialect := dialect, moduleCode := true, strict := true }

/-! ## Trees -/

/-- A part without parts of its own, wherever it stands. -/
def IsLeaf (kind : PartKind) (t : Tree) : Prop := ∃ span, t = .ofPart kind span []

/-- The tree is the other one, wherever it stands. -/
def Tree.Is (tree t : Tree) : Prop := t.eraseSpans = tree

theorem Tree.Is.node {kind : Kind} {span : Span} {ts us : List Tree}
    (h : us.map Tree.eraseSpans = ts) : (Tree.node kind .nowhere ts).Is (.node kind span us) := by
  rw [Tree.Is, Tree.eraseSpans_node, h]

theorem Tree.Is.node_inv {kind : Kind} {ts : List Tree} {t : Tree}
    (h : (Tree.node kind .nowhere ts).Is t) :
    ∃ span us, t = .node kind span us ∧ us.map Tree.eraseSpans = ts := by
  obtain ⟨kind', span, us⟩ := t
  rw [Tree.Is, Tree.eraseSpans_node] at h
  obtain ⟨rfl, -, hparts⟩ := Tree.node.inj h
  exact ⟨span, us, rfl, hparts⟩

theorem IsLeaf.is {kind : PartKind} {t : Tree} (h : IsLeaf kind t) :
    (Tree.ofPart kind .nowhere []).Is t := by
  obtain ⟨span, rfl⟩ := h
  rfl

def nameTree (n : Text) : Tree := .ofPart (.name n) .nowhere []

namespace Parse

/-! ## Rules -/

variable {C : Context → Prop} {c : Context} {x y : Text} {t : Token} {n : Text}

theorem takes_someToken (h : Leads x t y) : Takes C c x x someToken (· = t) := by
  obtain ⟨gap, w, hgap, hw, hx⟩ := id h
  refine (Takes.token? h).andThen ?_
  split
  · next e heq => exact absurd (Option.some.inj heq) (hw.not_broken e)
  · next t' _ heq =>
    obtain rfl := Option.some.inj heq
    exact .pure rfl
  · next heq => cases heq

theorem takes_anyName (h : Leads x (wordToken n) y) : Takes C c x y anyName (IsLeaf (.name n)) := by
  have hword : Takes C c x y anyWord (·.1 = n) := by
    refine (takes_someToken h).andThen ?_
    obtain ⟨k, htoken, hk⟩ | htoken := wordToken_cases n
    · rw [htoken]
      exact (Takes.advance h).before fun _ => Takes.previous.before fun _ => .pure hk
    · rw [htoken]
      exact (Takes.advance h).before fun _ => Takes.previous.before fun _ => .pure rfl
  refine hword.bind ?_
  rintro ⟨n', span⟩ rfl
  exact .pure ⟨span, rfl⟩

theorem takes_nameWord {allowYield allowAwait : Bool} (hn : Declarable n)
    (h : Leads x (wordToken n) y) :
    Takes C c x y (nameWord allowYield allowAwait) (·.1 = n) := by
  obtain ⟨-, -, henum, hstrict, heval⟩ := id hn
  have harguments : (n == text "arguments") = false := (Bool.or_eq_false_iff.mp heval).2
  refine Takes.context.andThen ((takes_someToken h).andThen ?_)
  rw [hn.token]
  refine .otherwise ((Takes.advance h).before fun _ => Takes.previous.before fun span => ?_)
  dsimp only
  rw [if_neg (by simpa using henum), if_neg (by simpa using hstrict), harguments]
  exact .pure rfl

theorem takes_declaredWord {reservesLet : Bool} (hn : Declarable n) (h : Leads x (wordToken n) y) :
    Takes C c x y (declaredWord reservesLet) (·.1 = n) := by
  obtain ⟨-, hkeyword, -, hstrict, heval⟩ := id hn
  have hawait : (n == text "await") = false := by
    refine beq_false_of_ne ?_
    rintro rfl
    cases hkeyword
  have hyield : (n == text "yield") = false := by
    refine beq_false_of_ne ?_
    rintro rfl
    exact hstrict (by decide)
  refine Takes.context.andThen ?_
  cases reservesLet
  case' false => refine .otherwise ?_
  case' true =>
    refine .taken ((Takes.atKeyword h _).andThen ?_)
    rw [hn.token]
    refine .otherwise ?_
  all_goals
    refine (takes_nameWord hn h).bind ?_
    rintro ⟨n', span⟩ rfl
    dsimp only
    rw [heval, hawait, hyield, Bool.and_false, Bool.and_false]
    exact .otherwise (.otherwise (.otherwise (.pure rfl)))

theorem takes_declaredPlainName {reservesLet : Bool} (hn : Declarable n)
    (h : Leads x (wordToken n) y) :
    Takes C c x y (declaredPlainName reservesLet) (IsLeaf (.name n)) := by
  refine (takes_declaredWord hn h).bind ?_
  rintro ⟨n', span⟩ rfl
  exact .pure ⟨span, rfl⟩

theorem takes_stringPart? {value raw : Text} (h : Leads x (.string value raw) y) :
    Takes C c x y stringPart? fun found =>
      ∃ s, found = some s ∧ IsLeaf (.string value (some raw)) s := by
  refine (Takes.token? h).andThen ?_
  exact (Takes.advance h).before fun _ => Takes.previous.before fun span => .pure ⟨_, rfl, span, rfl⟩

theorem takes_stringPart?_other (h : Leads x t y) (ht : ∀ value raw, t ≠ .string value raw) :
    Takes C c x x stringPart? (· = none) := by
  refine (Takes.token? h).andThen ?_
  split
  · next value raw heq => exact absurd (Option.some.inj heq) (ht value raw)
  · exact .pure rfl

end Parse
end InlineTemplates.Script
