import InlineTemplates.Proofs.Data.Lists

/-! # Data

What precompiled templates are made of: strings, constants, arrays and objects, names and their
members, and calls of these. In every dialect, and wherever a comma, a bracket or the end of a
statement follows, the grammar reads the tokens of data as the tree of that data. -/

namespace InlineTemplates.Script

/-- Data as code says it. -/
inductive Datum where
  | null
  | bool (b : Bool)
  | string (raw value : Text)
  | dotted (n : Text) (members : List Text)
  | call (n : Text) (members : List Text) (args : List Datum)
  | array (elements : List Datum)
  /-- An object; each key is a string. -/
  | object (entries : List (Text × Text × Datum))

theorem length_commaTokens_le (parts : List (List Token)) :
    (commaTokens parts).length ≤ (laterTokens parts).length := by
  cases parts with
  | nil => exact Nat.le_refl _
  | cons ts more => exact Nat.le_succ _

namespace Datum

def entryTokens (raw value : Text) (tokens : List Token) : List Token :=
  .string value raw :: .mark .colon :: tokens

def entryTree (raw value : Text) (tree : Tree) : Tree :=
  .prop .keyValue .nowhere [.ofPart (.string value (some raw)) .nowhere [], tree]

mutual
def tokens : Datum → List Token
  | null => [.keyword .null]
  | bool b => [.keyword (if b then .true else .false)]
  | string raw value => [.string value raw]
  | dotted n members => wordToken n :: Parse.memberTokens members
  | call n members args => wordToken n :: (Parse.memberTokens members ++
      (.mark .parenOpen :: (commaTokens (tokensOfAll args) ++ [.mark .parenClose])))
  | array elements => .mark .bracketOpen :: (commaTokens (tokensOfAll elements) ++ [.mark .bracketClose])
  | object entries => .mark .braceOpen :: (commaTokens (tokensOfEntries entries) ++ [.mark .braceClose])

def tokensOfAll : List Datum → List (List Token)
  | [] => []
  | d :: ds => d.tokens :: tokensOfAll ds

def tokensOfEntries : List (Text × Text × Datum) → List (List Token)
  | [] => []
  | (raw, value, d) :: more => entryTokens raw value d.tokens :: tokensOfEntries more
end

mutual
def tree : Datum → Tree
  | null => .expr .null .nowhere []
  | bool b => .expr (.bool b) .nowhere []
  | string raw value => .expr (.string value (some raw)) .nowhere []
  | dotted n members => Parse.membersOf (.expr (.name n) .nowhere []) members
  | call n members args => .expr .call .nowhere
      [Parse.membersOf (.expr (.name n) .nowhere []) members, .list (trees args), .absent]
  | array elements => .expr .array .nowhere (trees elements)
  | object entries => .expr .object .nowhere (treesOfEntries entries)

def trees : List Datum → List Tree
  | [] => []
  | d :: ds => d.tree :: trees ds

def treesOfEntries : List (Text × Text × Datum) → List Tree
  | [] => []
  | (raw, value, d) :: more => entryTree raw value d.tree :: treesOfEntries more
end

mutual
/-- Names may be declared, and `async` is none of them; words and strings are such. -/
def Legal : Datum → Prop
  | null | bool _ => True
  | string raw value => IsString raw value
  | dotted n members => Declarable n ∧ n ≠ text "async" ∧ ∀ m ∈ members, IsWordText m
  | call n members args =>
      (Declarable n ∧ n ≠ text "async" ∧ ∀ m ∈ members, IsWordText m) ∧ AllLegal args
  | array elements => AllLegal elements
  | object entries => EntriesLegal entries

def AllLegal : List Datum → Prop
  | [] => True
  | d :: ds => d.Legal ∧ AllLegal ds

def EntriesLegal : List (Text × Text × Datum) → Prop
  | [] => True
  | (raw, value, d) :: more => IsString raw value ∧ d.Legal ∧ EntriesLegal more
end

mutual
def depth : Datum → Nat
  | null | bool _ | string _ _ | dotted _ _ => 1
  | call _ _ args => depthOfAll args + 1
  | array elements => depthOfAll elements + 1
  | object entries => depthOfEntries entries + 1

def depthOfAll : List Datum → Nat
  | [] => 0
  | d :: ds => max d.depth (depthOfAll ds)

def depthOfEntries : List (Text × Text × Datum) → Nat
  | [] => 0
  | (_, _, d) :: more => max d.depth (depthOfEntries more)
end

end Datum

/-- The tree is data, wherever its parts stand. -/
def Tree.IsData (t : Tree) : Prop := ∃ datum : Datum, datum.Legal ∧ datum.tree.Is t

def Tree.AreData (ts : List Tree) : Prop :=
  ∃ ds : List Datum, Datum.AllLegal ds ∧ ts.map Tree.eraseSpans = Datum.trees ds

namespace Datum

/-! ## Sizes -/

mutual
theorem depth_le_length : ∀ d : Datum, d.depth ≤ d.tokens.length
  | .null | .bool _ | .string _ _ => Nat.le_refl 1
  | .dotted n members => Nat.succ_le_succ (Nat.zero_le _)
  | .call n members args => by
    have hargs := depthOfAll_le_length args
    simp only [depth, tokens, List.length_cons, List.length_append, List.length_nil]
    omega
  | .array elements => by
    have helements := depthOfAll_le_length elements
    simp only [depth, tokens, List.length_cons, List.length_append, List.length_nil]
    omega
  | .object entries => by
    have hentries := depthOfEntries_le_length entries
    simp only [depth, tokens, List.length_cons, List.length_append, List.length_nil]
    omega

theorem depthOfAll_le_length : ∀ ds : List Datum,
    depthOfAll ds ≤ (commaTokens (tokensOfAll ds)).length
  | [] => Nat.zero_le _
  | d :: ds => by
    have hfirst := depth_le_length d
    have hothers := depthOfAll_le_length ds
    have hlater := length_commaTokens_le (tokensOfAll ds)
    simp only [depthOfAll, tokensOfAll, commaTokens, List.length_append]
    omega

theorem depthOfEntries_le_length : ∀ entries : List (Text × Text × Datum),
    depthOfEntries entries ≤ (commaTokens (tokensOfEntries entries)).length
  | [] => Nat.zero_le _
  | (raw, value, d) :: more => by
    have hfirst := depth_le_length d
    have hothers := depthOfEntries_le_length more
    have hlater := length_commaTokens_le (tokensOfEntries more)
    simp only [depthOfEntries, tokensOfEntries, commaTokens, entryTokens, List.length_append,
      List.length_cons]
    omega
end

/-! ## Kinds -/

theorem isExpr_membersOf {obj : Tree} (h : obj.isExpr = true) (members : List Text) :
    (Parse.membersOf obj members).isExpr = true := by
  induction members generalizing obj with
  | nil => exact h
  | cons m members ih => exact ih rfl

theorem isExpr_tree (d : Datum) : d.tree.isExpr = true := by
  cases d with
  | dotted n members => exact isExpr_membersOf rfl members
  | _ => rfl

theorem isExpr_trees (ds : List Datum) : ∀ t ∈ trees ds, t.isExpr = true := by
  induction ds with
  | nil => exact nofun
  | cons d ds ih => exact List.forall_mem_cons.mpr ⟨d.isExpr_tree, ih⟩

/-! ## Spans -/

theorem eraseSpans_membersOf (obj : Tree) (members : List Text) :
    (Parse.membersOf obj members).eraseSpans = Parse.membersOf obj.eraseSpans members := by
  induction members generalizing obj with
  | nil => rfl
  | cons m members ih => exact ih _

mutual
theorem eraseSpans_tree : ∀ d : Datum, d.tree.eraseSpans = d.tree
  | .null | .bool _ | .string _ _ => rfl
  | .dotted n members => eraseSpans_membersOf _ members
  | .call n members args => by
    have hcallee : (Parse.membersOf (.expr (.name n) .nowhere []) members).eraseSpans =
        Parse.membersOf (.expr (.name n) .nowhere []) members := eraseSpans_membersOf _ members
    have hargs : (Tree.list (trees args)).eraseSpans = .list (trees args) := by
      rw [Tree.list, Tree.eraseSpans_node, eraseSpans_trees args]
    rw [tree, Tree.expr, Tree.eraseSpans_node, List.map_cons, List.map_cons, hcallee, hargs]
    rfl
  | .array elements => congrArg (Tree.node _ _) (by
    rw [Tree.eraseSpansAll_eq_map]
    exact eraseSpans_trees elements)
  | .object entries => congrArg (Tree.node _ _) (by
    rw [Tree.eraseSpansAll_eq_map]
    exact eraseSpans_treesOfEntries entries)

theorem eraseSpans_trees : ∀ ds : List Datum, (trees ds).map Tree.eraseSpans = trees ds
  | [] => rfl
  | d :: ds => by rw [trees, List.map_cons, eraseSpans_tree d, eraseSpans_trees ds]

theorem eraseSpans_treesOfEntries : ∀ entries : List (Text × Text × Datum),
    (treesOfEntries entries).map Tree.eraseSpans = treesOfEntries entries
  | [] => rfl
  | (raw, value, d) :: more => by
    have hentry : (entryTree raw value d.tree).eraseSpans = entryTree raw value d.tree := by
      rw [entryTree, Tree.prop, Tree.eraseSpans_node, List.map_cons, List.map_singleton,
        eraseSpans_tree d]
      rfl
    rw [treesOfEntries, List.map_cons, hentry, eraseSpans_treesOfEntries more]
end

end Datum

namespace Parse

variable {C : Context → Prop} {c : Context} {g : Grammar} {x y z w : Text} {t? : Option Token}
  {n : Text}

/-! ## Primary expressions -/

theorem takes_asyncFunction? {t : Token} {start : Nat} {canBeArrow : Bool} (hx : Leads x t y)
    (ht : startsOperand t = true) :
    Takes C c x x (asyncFunction? g start canBeArrow) (· = none) := by
  have hname : isName "async" (some t) = false := by
    cases t with
    | name n plain =>
      have hne : n ≠ text "async" := by simpa [startsOperand] using ht
      simp [isName, hne]
    | _ => rfl
  refine (Takes.atName hx _).andThen ?_
  rw [hname]
  exact .taken (.pure rfl)

theorem takes_reference (hn : Declarable n) (h : Leads x (wordToken n) y) :
    Takes C c x y reference (·.1 = n) :=
  Takes.context.andThen (takes_nameWord hn h)

theorem startsOperand_word (hn : Declarable n) (hasync : n ≠ text "async") :
    startsOperand (wordToken n) = true := by
  rw [hn.token]
  simpa [startsOperand] using hasync

theorem takes_primary_name (hn : Declarable n) (hasync : n ≠ text "async")
    (h : Leads x (wordToken n) y) (hy : Shows y t?) (ht : isMark .arrow t? = false) :
    Takes C c x y (primary g) (IsOperandOf (.expr (.name n) .nowhere [])) := by
  have hstarts := startsOperand_word hn hasync
  have himport : n ≠ text "import" := by
    rintro rfl
    cases hn.2.1
  have hmade (span : Span) : IsOperandOf (.expr (.name n) .nowhere []) (.expr (.name n) span []) :=
    ⟨rfl, by simpa [isOperand, Tree.expr, Tree.kind] using himport⟩
  have hname (start : Nat) (canBeArrow : Bool) : Takes C c x y (nameOrArrow g start canBeArrow)
      (IsOperandOf (.expr (.name n) .nowhere [])) := by
    refine (Takes.token? h).andThen ?_
    rw [hn.token]
    refine (takes_reference hn h).bind ?_
    rintro ⟨n', span⟩ rfl
    refine .otherwise (hy.lineBreak.before fun ends => ?_)
    cases !canBeArrow || ends with
    | true => exact .taken (.pure (hmade span))
    | false =>
      refine .otherwise ?_
      rw [beq_false_of_ne hasync]
      refine hy.atFreeWord.andThen (.otherwise ((hy.accept_other ht).andThen (.otherwise ?_)))
      exact .pure (hmade span)
  have hliteral : Takes C c x x literal? (· = none) := by
    refine (Takes.token? h).andThen ?_
    rw [hn.token]
    exact .pure rfl
  have hregex : Takes C c x x regexLiteral? (· = none) := by
    refine (Takes.token? h).andThen ?_
    rw [hn.token]
    exact Takes.pure rfl
  refine (Takes.here h).before fun start => Takes.get.before fun s => ?_
  refine (takes_asyncFunction? h hstarts).andThen (hliteral.andThen ((Takes.token? h).andThen ?_))
  rw [hn.token]
  refine hregex.andThen ((Takes.atKeyword h _).andThen ?_)
  rw [hn.token]
  refine .otherwise ((Takes.accept_other h (isMark_wordToken n _)).andThen (.otherwise ?_))
  refine (Takes.atFreeWord h).andThen ((Takes.atKeyword h _).andThen (Takes.typed.andThen ?_))
  rw [hn.isFreeWord]
  exact (Takes.atKeyword h _).andThen (.taken (hname _ _))

theorem takes_primary_literal {t : Token} {k : ExprKind} (h : Leads x t y)
    (ht : startsOperand t = true)
    (hliteral : Takes C c x y literal? fun found => ∃ span, found = some (.expr k span []))
    (hk : isOperand (.expr k .nowhere []) = true) :
    Takes C c x y (primary g) (IsOperandOf (.expr k .nowhere [])) := by
  refine (Takes.here h).before fun start => Takes.get.before fun s => ?_
  refine (takes_asyncFunction? h ht).andThen (hliteral.bind ?_)
  rintro _ ⟨span, rfl⟩
  exact .pure ⟨rfl, hk⟩

theorem takes_primary_bracket {m : Mark} {tree : Tree} (h : Leads x (.mark m) y)
    (hm : m = .bracketOpen ∧ Takes C c x z (arrayLiteral g) (IsOperandOf tree) ∨
      m = .braceOpen ∧ Takes C c x z (objectLiteral g) (IsOperandOf tree) ∨
      m = .parenOpen ∧ ∀ canBeArrow,
        Takes C c x z (parenOrArrow g canBeArrow none) (IsOperandOf tree)) :
    Takes C c x z (primary g) (IsOperandOf tree) := by
  have ht : startsOperand (.mark m) = true := by
    obtain ⟨rfl, -⟩ | ⟨rfl, -⟩ | ⟨rfl, -⟩ := hm <;> rfl
  have hliteral : Takes C c x x literal? (· = none) := (Takes.token? h).andThen (.pure rfl)
  refine (Takes.here h).before fun start => Takes.get.before fun s => ?_
  refine (takes_asyncFunction? h ht).andThen (hliteral.andThen ((Takes.token? h).andThen ?_))
  obtain ⟨rfl, hread⟩ | ⟨rfl, hread⟩ | ⟨rfl, hread⟩ := hm
  · exact hread
  · exact hread
  · exact hread _

/-! ## Objects -/

theorem reads_property (hC : ExprContexts C) {raw value : Text} {tokens : List Token} {tree : Tree}
    (h : Reads C g.assignment tokens tree) :
    Reads C (objectProperty g) (Datum.entryTokens raw value tokens)
      (Datum.entryTree raw value tree) where
  starts := ⟨_, _, rfl, rfl⟩
  takes {c x y t?} hx hy hclose := by
    obtain ⟨v, hkey, w, hcolon, hvalue⟩ := hx
    have hmodifier : Takes C c x x anyModifier (· = false) := by
      have hword : Takes C c x x modifierWord? (· = none) := (Takes.token? hkey).andThen (.pure rfl)
      refine Takes.typed.andThen ?_
      cases c.dialect.types with
      | false => exact .taken (.pure rfl)
      | true => exact .otherwise (hword.andThen (.pure rfl))
    have hname : Takes C c x v (propertyName g) (IsLeaf (.string value (some raw))) := by
      refine .within hC.inPropertyName ((takes_someToken hkey).andThen ?_)
      exact (Takes.advance hkey).before fun _ => Takes.previous.before fun span => .pure ⟨span, rfl⟩
    have htail (key : Tree) : Takes C c v v (atPropertyTail key) (· = true) :=
      (Takes.token? hcolon).andThen (.pure rfl)
    refine (Takes.here hkey).before fun start => ?_
    refine (Takes.accept_other hkey rfl).andThen (.otherwise ?_)
    refine (Takes.accept_other hkey rfl).andThen (.otherwise (hmodifier.andThen ?_))
    refine Takes.previous.before fun span => hname.bind fun key hkeyed => ?_
    refine Takes.typed.andThen ((htail key).andThen ?_)
    rw [Bool.not_true, Bool.and_false]
    refine .otherwise ((Takes.accept hcolon).andThen (.taken ?_))
    refine (Takes.withIn hC fun c => h.takes hvalue hy hclose).bind fun e he => ?_
    have hmade := congrArg₂ (fun t u => [t, u]) hkeyed.is he
    exact (Takes.spanFrom _).before fun span => .pure (.node hmade)

theorem takes_objectLiteral (hC : ExprContexts C) {parts : List (List Token)} {trees : List Tree}
    (h : List.Forall₂ (Reads C (objectProperty g)) parts trees)
    (hx : Lexes x (.mark .braceOpen :: (commaTokens parts ++ [.mark .braceClose])) y) :
    Takes C c x y (objectLiteral g) (IsOperandOf (.expr .object .nowhere trees)) := by
  obtain ⟨x₁, hopen, -⟩ := id hx
  refine Takes.withoutColon hC fun c => (Takes.here hopen).before fun start => ?_
  refine (takes_braced h hx).bind ?_
  rintro ⟨props, comma⟩ hprops
  have hmade (span : Span) :
      IsOperandOf (.expr .object .nowhere trees) (.expr .object span props) := ⟨.node hprops, rfl⟩
  cases comma with
  | none => exact (Takes.spanFrom _).before fun span => .pure (hmade span)
  | some comma =>
    refine Takes.before (Takes.modify (fun _ => rfl) (fun _ => rfl) fun _ => rfl) fun _ => ?_
    exact (Takes.spanFrom _).before fun span => .pure (hmade span)

/-! ## Members and calls -/

section
variable (hC : ExprContexts C) {t : Token} {u v : Text} {k : Nat} {tree : Tree}
  {members : List Text} {trees : List Tree}
include hC

theorem takes_assignment_members (hx : Leads x t u) (ht : startsOperand t = true)
    (hprimary : ∀ c, Takes C c x y (primary (.ofDepth k)) (IsOperandOf tree))
    (h : Lexes y (memberTokens members) z) (hz : Shows z t?) (hclose : t? ∈ closers) :
    Takes C c x z (assignmentExpr (.ofDepth (k + 2))) (IsOperandOf (membersOf tree members)) := by
  refine takes_assignmentExpr hx ht (takes_unaryExpr hx ht ?_ hz hclose) hz hclose
  have hrests : Rests z true t? := rests_of_mem_closers hz hclose
  refine takes_leftHandSideExpr hx ht (takes_memberOrNewExpr hC hx ht hprimary h hrests) hz
    hrests.accesses (fun hcall => ?_) fun _ => ⟨rfl, fun _ => id⟩
  rw [isMark_of_mem_closers (by simp [closers]) hclose] at hcall
  cases hcall

theorem takes_assignment_call (hx : Leads x t u) (ht : startsOperand t = true)
    (hprimary : ∀ c, Takes C c x y (primary (.ofDepth k)) (IsOperandOf tree))
    (h : Lexes y (memberTokens members) z) (hz : Leads z (.mark .parenOpen) v)
    (hargs : Takes C c z w (arguments (.ofDepth (k + 1)) false) (·.map Tree.eraseSpans = trees))
    (hw : Shows w t?) (hclose : t? ∈ closers) :
    Takes C c x w (assignmentExpr (.ofDepth (k + 2)))
      (IsOperandOf (.expr .call .nowhere [membersOf tree members, .list trees, .absent])) := by
  refine takes_assignmentExpr hx ht (takes_unaryExpr hx ht ?_ hw hclose) hw hclose
  have hrests : Rests z true (some (.mark .parenOpen)) := ⟨.of_leads hz, by decide, rfl, rfl⟩
  refine takes_leftHandSideExpr hx ht (takes_memberOrNewExpr hC hx ht hprimary h hrests)
    hrests.shows hrests.accesses (fun _ start callee hcallee => ?_) fun hno => by cases hno
  refine (takes_callOf hcallee hargs).bind fun e he => ?_
  have hnone : Lexes w (memberTokens []) w := rfl
  exact takes_subscripts he.1 he.2 hnone (rests_of_mem_closers hw hclose)

end

/-! ## Data -/

theorem reads_of_primary (hC : ExprContexts C) {k : Nat} {tokens : List Token} {tree : Tree}
    (hstarts : ∃ t more, tokens = t :: more ∧ startsOperand t = true)
    (h : ∀ c x y, Lexes x tokens y → Takes C c x y (primary (.ofDepth k)) (IsOperandOf tree)) :
    Reads C (assignmentExpr (.ofDepth (k + 2))) tokens tree where
  starts := hstarts
  takes {c x y t?} hx hy hclose := by
    obtain ⟨t, more, rfl, ht⟩ := hstarts
    obtain ⟨w, hw, -⟩ := id hx
    have hnone : Lexes y (memberTokens []) y := rfl
    exact (takes_assignment_members hC hw ht (fun c => h c x y hx) hnone hy hclose).mono
      fun _ he => he.1

theorem reads_dotted (hC : ExprContexts C) {k : Nat} {members : List Text} (hn : Declarable n)
    (hasync : n ≠ text "async") :
    Reads C (assignmentExpr (.ofDepth (k + 2))) (wordToken n :: memberTokens members)
      (membersOf (.expr (.name n) .nowhere []) members) where
  starts := ⟨_, _, rfl, startsOperand_word hn hasync⟩
  takes {c x y t?} hx hy hclose := by
    obtain ⟨w, hname, hmembers⟩ := hx
    have hrests : Rests y true t? := rests_of_mem_closers hy hclose
    obtain ⟨u?, hw, hu⟩ := shows_members hmembers hrests
    have hprimary (c : Context) := takes_primary_name (C := C) (c := c) (g := .ofDepth k) hn hasync
      hname hw (hu _ (by decide))
    exact (takes_assignment_members hC hname (startsOperand_word hn hasync) hprimary hmembers hy
      hclose).mono fun _ he => he.1

theorem reads_call (hC : ExprContexts C) {k : Nat} {members : List Text}
    {parts : List (List Token)} {trees : List Tree} (hn : Declarable n) (hasync : n ≠ text "async")
    (h : List.Forall₂ (Reads C (Grammar.ofDepth (k + 1)).assignment) parts trees) :
    Reads C (assignmentExpr (.ofDepth (k + 2)))
      (wordToken n :: (memberTokens members ++
        (.mark .parenOpen :: (commaTokens parts ++ [.mark .parenClose]))))
      (.expr .call .nowhere [membersOf (.expr (.name n) .nowhere []) members, .list trees, .absent])
    where
  starts := ⟨_, _, rfl, startsOperand_word hn hasync⟩
  takes {c x y t?} hx hy hclose := by
    obtain ⟨w, hname, hrest⟩ := hx
    obtain ⟨z, hmembers, hcall⟩ := lexes_append.mp hrest
    obtain ⟨v, hparen, -⟩ := id hcall
    have hrests : Rests z true (some (.mark .parenOpen)) := ⟨.of_leads hparen, by decide, rfl, rfl⟩
    obtain ⟨u?, hw, hu⟩ := shows_members hmembers hrests
    have hprimary (c : Context) := takes_primary_name (C := C) (c := c) (g := .ofDepth k) hn hasync
      hname hw (hu _ (by decide))
    exact (takes_assignment_call hC hname (startsOperand_word hn hasync) hprimary hmembers hparen
      (takes_arguments hC h hcall) hy hclose).mono fun _ he => he.1

mutual
/-- Data is read as the tree that it stands for, wherever it ends. -/
theorem reads_datum (hC : ExprContexts C) : ∀ (d : Datum), d.Legal → ∀ n, 3 * d.depth ≤ n →
    Reads C (assignmentExpr (.ofDepth n)) d.tokens d.tree
  | .null, _, n, hn => by
    obtain ⟨k, rfl⟩ := Nat.exists_eq_add_of_le' hn
    refine reads_of_primary hC (k := k + 1) ⟨_, _, rfl, rfl⟩ fun c x y hx => ?_
    obtain ⟨_, hx, rfl⟩ := hx
    refine takes_primary_literal hx rfl ((Takes.token? hx).andThen ?_) rfl
    exact (Takes.advance hx).before fun _ => Takes.previous.before fun span => .pure ⟨span, rfl⟩
  | .bool b, _, n, hn => by
    obtain ⟨k, rfl⟩ := Nat.exists_eq_add_of_le' hn
    refine reads_of_primary hC (k := k + 1) ⟨_, _, rfl, by cases b <;> rfl⟩ fun c x y hx => ?_
    obtain ⟨_, hx, rfl⟩ := hx
    refine takes_primary_literal hx (by cases b <;> rfl) ((Takes.token? hx).andThen ?_) rfl
    cases b
    all_goals
      exact (Takes.advance hx).before fun _ => Takes.previous.before fun span => .pure ⟨span, rfl⟩
  | .string raw value, _, n, hn => by
    obtain ⟨k, rfl⟩ := Nat.exists_eq_add_of_le' hn
    refine reads_of_primary hC (k := k + 1) ⟨_, _, rfl, rfl⟩ fun c x y hx => ?_
    obtain ⟨_, hx, rfl⟩ := hx
    refine takes_primary_literal hx rfl ((Takes.token? hx).andThen ?_) rfl
    exact (Takes.advance hx).before fun _ => Takes.previous.before fun span => .pure ⟨span, rfl⟩
  | .dotted name members, hlegal, n, hn => by
    obtain ⟨k, rfl⟩ := Nat.exists_eq_add_of_le' hn
    exact reads_dotted hC (k := k + 1) hlegal.1 hlegal.2.1
  | .call name members args, hlegal, n, hn => by
    obtain ⟨k, rfl⟩ : ∃ k, n = k + 3 := ⟨n - 3, by rw [Datum.depth] at hn; omega⟩
    refine reads_call hC (k := k + 1) hlegal.1.1 hlegal.1.2.1 ?_
    exact reads_data hC args hlegal.2 (k + 1) (by rw [Datum.depth] at hn; omega)
  | .array elements, hlegal, n, hn => by
    obtain ⟨k, rfl⟩ : ∃ k, n = k + 3 := ⟨n - 3, by rw [Datum.depth] at hn; omega⟩
    refine reads_of_primary hC (k := k + 1) ⟨_, _, rfl, rfl⟩ fun c x y hx => ?_
    obtain ⟨w, hopen, -⟩ := id hx
    refine takes_primary_bracket hopen (.inl ⟨rfl, takes_arrayLiteral hC ?_ hx⟩)
    exact reads_data hC elements hlegal k (by rw [Datum.depth] at hn; omega)
  | .object entries, hlegal, n, hn => by
    obtain ⟨k, rfl⟩ : ∃ k, n = k + 3 := ⟨n - 3, by rw [Datum.depth] at hn; omega⟩
    refine reads_of_primary hC (k := k + 1) ⟨_, _, rfl, rfl⟩ fun c x y hx => ?_
    obtain ⟨w, hopen, -⟩ := id hx
    refine takes_primary_bracket hopen (.inr (.inl ⟨rfl, takes_objectLiteral hC ?_ hx⟩))
    exact reads_entries hC entries hlegal k (by rw [Datum.depth] at hn; omega)

theorem reads_data (hC : ExprContexts C) : ∀ (ds : List Datum), Datum.AllLegal ds →
    ∀ n, 3 * Datum.depthOfAll ds ≤ n →
    List.Forall₂ (Reads C (assignmentExpr (.ofDepth n))) (Datum.tokensOfAll ds) (Datum.trees ds)
  | [], _, _, _ => .nil
  | d :: ds, hlegal, n, hn => by
    rw [Datum.depthOfAll] at hn
    exact .cons (reads_datum hC d hlegal.1 n (by omega)) (reads_data hC ds hlegal.2 n (by omega))

theorem reads_entries (hC : ExprContexts C) : ∀ (entries : List (Text × Text × Datum)),
    Datum.EntriesLegal entries → ∀ n, 3 * Datum.depthOfEntries entries ≤ n →
    List.Forall₂ (Reads C (objectProperty (.ofDepth (n + 1)))) (Datum.tokensOfEntries entries)
      (Datum.treesOfEntries entries)
  | [], _, _, _ => .nil
  | (raw, value, d) :: more, hlegal, n, hn => by
    rw [Datum.depthOfEntries] at hn
    exact .cons (reads_property hC (reads_datum hC d hlegal.2.1 n (by omega)))
      (reads_entries hC more hlegal.2.2 n (by omega))
end

end Parse
end InlineTemplates.Script
