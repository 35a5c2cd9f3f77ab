import InlineTemplates.Proofs.Printing.Comments

/-! # Where a printed tree has places for comments

Each place for comments in the print of a tree is at an edge of one of its nodes. So a tree without
spans has no place for a comment of a source. -/

namespace InlineTemplates.Script

/-- All places for comments in a document have the property. -/
def Doc.Only (P : CommentSide × Nat → Prop) (d : Doc) : Prop := ∀ place ∈ d.places, P place

/-- The places that the printer derives from a span: its edges, the dot or the digits before it, and
the bracket at its end. -/
structure EdgesFit (P : CommentSide × Nat → Prop) (span : Span) : Prop where
  before : P (.leading, span.lo)
  dot : P (.leading, span.lo - 1)
  digits : P (.leading, span.lo - 2)
  bracket : P (.leading, span.hi - 1)
  after : P (.trailing, span.hi)

namespace Doc

variable {P : CommentSide × Nat → Prop} {a b d : Doc}

@[simp] theorem only_nil : Only P [] := fun _ h => nomatch h

@[simp] theorem only_append : Only P (a ++ b) ↔ Only P a ∧ Only P b := by
  unfold Only
  rw [places_append]
  exact List.forall_mem_append

@[simp] theorem only_text (t : Text) : Only P (.text t :: d) ↔ Only P d := Iff.rfl
@[simp] theorem only_newline : Only P (.newline :: d) ↔ Only P d := Iff.rfl
@[simp] theorem only_indent : Only P (.indent :: d) ↔ Only P d := Iff.rfl
@[simp] theorem only_dedent : Only P (.dedent :: d) ↔ Only P d := Iff.rfl
@[simp] theorem only_lit (w : String) : Only P (lit w) := fun _ h => nomatch h
@[simp] theorem only_space : Only P space := fun _ h => nomatch h

theorem only_before (n : Nat) : Only P (Doc.before n) ↔ P (.leading, n) :=
  List.forall_mem_singleton

@[simp] theorem only_after (n : Nat) : Only P (Doc.after n) ↔ P (.trailing, n) :=
  List.forall_mem_singleton

@[simp] theorem only_behind (n : Nat) : Only P (Doc.behind n) ↔ P (.trailing, n) :=
  List.forall_mem_singleton

theorem only_ite {c : Prop} [Decidable c] (ha : Only P a) (hb : Only P b) :
    Only P (if c then a else b) := by
  split
  · exact ha
  · exact hb

@[simp] theorem only_if_nil {c : Prop} [Decidable c] :
    Only P (if c then a else b) ↔ (c → Only P a) ∧ (¬ c → Only P b) := by
  split <;> simp_all

theorem only_flatMap {α : Type} {f : α → Doc} {xs : List α} (h : ∀ x ∈ xs, Only P (f x)) :
    Only P (xs.flatMap f) := by
  intro place hplace
  rw [places_flatMap, List.mem_flatMap] at hplace
  obtain ⟨x, hx, hplace⟩ := hplace
  exact h x hx place hplace

theorem only_intercalate {mark : Doc} {ds : List Doc} (hmark : Only P mark)
    (h : ∀ d ∈ ds, Only P d) : Only P (mark.intercalate ds) := by
  induction ds with
  | nil => exact only_nil
  | cons d ds ih =>
    obtain ⟨hfirst, hothers⟩ := List.forall_mem_cons.mp h
    cases ds with
    | nil =>
      rw [List.intercalate_singleton]
      exact hfirst
    | cons e es =>
      rw [List.intercalate_cons_cons, only_append, only_append]
      exact ⟨⟨hfirst, hmark⟩, ih hothers⟩

end Doc

/-! ## Printed parts -/

namespace Printed

/-- The places in the code of a printed tree and of its parts, and those at their edges, have the
property. -/
inductive Fits (P : CommentSide × Nat → Prop) : Printed → Prop where
  | mk {t : Tree} {d : Doc} {ps : List Printed} (span : EdgesFit P t.span) (code : d.Only P)
      (parts : ∀ p ∈ ps, Fits P p) : Fits P (.mk t d ps)

namespace Fits

variable {P : CommentSide × Nat → Prop} {p : Printed}

@[simp] theorem code (h : p.Fits P) : p.code.Only P := by
  cases h with
  | mk _ code _ => exact code

theorem span (h : p.Fits P) : EdgesFit P p.span := by
  cases h with
  | mk span _ _ => exact span

theorem parts (h : p.Fits P) : ∀ q ∈ p.parts, q.Fits P := by
  cases h with
  | mk _ _ parts => exact parts

@[simp] theorem before (h : p.Fits P) : (Doc.before p.span.lo).Only P :=
  (Doc.only_before _).mpr h.span.before

@[simp] theorem after (h : p.Fits P) : p.after.Only P := (Doc.only_after _).mpr h.span.after

@[simp] theorem whole (h : p.Fits P) : p.whole.Only P := Doc.only_append.mpr ⟨h.code, h.after⟩

end Fits

@[simp] theorem only_led {P : CommentSide × Nat → Prop} (p : Printed) (mark : Doc)
    (form : Printed → Doc) :
    (p.led mark form).Only P ↔ (p.isAbsent = false → mark.Only P ∧ (form p).Only P) := by
  unfold Printed.led
  split
  · simp_all
  · simp_all

end Printed

namespace Style

open Doc (Only)
open Printed (Fits)

variable {P : CommentSide × Nat → Prop} {s : Style} {ps : List Printed} {p q : Printed} {span : Span}

@[simp] theorem only_gap : Only P s.gap := by
  unfold gap
  split <;> simp

@[simp] theorem only_newline : Only P s.newline := by
  unfold newline
  split <;> simp

@[simp] theorem only_gapIf (needed : Bool) : Only P (s.gapIf needed) := by
  unfold gapIf
  split <;> simp

theorem only_list (l : ListStyle) (parent : Span) {form : Printed → Doc}
    (h : ∀ p ∈ ps, p.Fits P) (hform : ∀ p, p.Fits P → Only P (form p)) :
    Only P (s.list l parent (ps.map (·.entry form))) := by
  have hentries : ∀ d ∈ (ps.map (·.entry form)).map (entry l), Only P d := by
    rw [List.map_map, List.forall_mem_map]
    intro p hp
    have hbehind := (h p hp).span.after
    simp only [Function.comp_apply, entry, Printed.entry, Doc.only_append]
    refine ⟨hform p (h p hp), ?_⟩
    split
    · exact Doc.only_nil
    · exact (Doc.only_behind _).mpr hbehind
  have hdelimiter : Only P (s.delimiter l) := by
    unfold delimiter
    split <;> simp
  have hmark : Only P (s.separator l) := by
    simp [separator, hdelimiter]
  have hcomma : Only P (s.finalComma l parent) := by
    unfold finalComma
    simp
  have hbody := Doc.only_intercalate hmark hentries
  unfold list
  split
  · simp
  · have hrow := Doc.only_append.mpr ⟨hbody, hcomma⟩
    have hindented : Only P (if l.indented = true then s.indented _ else _) :=
      Doc.only_ite (by unfold indented; exact Doc.only_ite hrow (by simpa using hrow)) hrow
    simp only [Doc.only_append]
    refine ⟨⟨by simp, hindented⟩, by simp⟩

@[simp] theorem only_list_parts (l : ListStyle) (parent : Span) {form : Printed → Doc}
    (h : p.Fits P) (hform : ∀ p, p.Fits P → Only P (form p)) :
    Only P (s.list l parent (p.parts.map (·.entry form))) :=
  only_list l parent h.parts hform

/-! ## Functions and templates -/

@[simp] theorem only_typeAfter (h : p.Fits P) : Only P (s.typeAfter p) := by
  simp [typeAfter, h]

@[simp] theorem only_parameters (h : p.Fits P) : Only P (s.parameters span p.parts) := by
  simp +contextual [parameters, h]

@[simp] theorem only_indexSignature (readonly : Bool) (h : p.Fits P) (hq : q.Fits P) :
    Only P (s.indexSignature span readonly p q) := by
  simp +contextual [indexSignature, h, hq]

@[simp] theorem only_functionRest (h : p.Fits P) : Only P (s.functionRest p) := by
  have hparts := h.parts
  unfold functionRest
  split
  · simp only [Printed.parts, List.forall_mem_cons] at hparts
    simp [hparts]
  · exact Doc.only_nil

@[simp] theorem only_functionHead {star : Doc} (hstar : Only P star) (h : p.Fits P) :
    Only P (functionHead star p q) := by
  unfold functionHead
  simp only [Doc.only_append, Printed.only_led, Doc.only_if_nil]
  simp [h, hstar]

@[simp] theorem only_statement (h : p.Fits P) : Only P (s.statement p) := by
  unfold statement
  split <;> simp [h]

theorem only_block (hspan : EdgesFit P span) (h : ∀ p ∈ ps, p.Fits P) :
    Only P (s.block span ps) := by
  have hlist : Only P (s.list .statements span (ps.map (·.entry s.statement))) :=
    only_list .statements span h fun _ => only_statement
  unfold block
  simp [Doc.only_before, hlist, hspan.bracket]

theorem only_interleaved {quasi inner : Printed → Doc} (hquasi : ∀ p, Only P (quasi p))
    (hinner : ∀ p, p.Fits P → Only P (inner p)) :
    ∀ (qs : List Printed) {es : List Printed}, (∀ e ∈ es, e.Fits P) →
      Only P (interleaved quasi inner qs es)
  | q :: qs, e :: es, h => by
    obtain ⟨hfirst, hothers⟩ := List.forall_mem_cons.mp h
    have ih := only_interleaved hquasi hinner qs hothers
    simp [interleaved, hquasi, hinner e hfirst, ih]
  | [], _, _ => by simp [interleaved]
  | q :: qs, [], _ => by
    rw [interleaved]
    · exact Doc.only_flatMap fun p _ => hquasi p
    · simp

@[simp] theorem only_template {inner : Printed → Doc} (hinner : ∀ p, p.Fits P → Only P (inner p))
    (h : p.Fits P) : Only P (s.template inner p q) := by
  have hquasi : ∀ p, Only P (s.quasi p) := by
    intro p
    unfold quasi
    split <;> simp
  have hrow := only_interleaved hquasi hinner q.parts h.parts
  simp [template, hrow]

@[simp] theorem only_taggedTemplate (h : p.Fits P) : Only P (taggedTemplate p) := by
  have hquasi : ∀ p, Only P (taggedQuasi p) := by
    intro p
    unfold taggedQuasi
    split <;> simp
  have hstart := h.span.before
  have hparts := h.parts
  unfold taggedTemplate
  split
  · next exprs quasis =>
    have hexprs : exprs.Fits P := hparts exprs List.mem_cons_self
    have hrow := only_interleaved hquasi (fun _ h => h.whole) quasis.parts hexprs.parts
    simpa [Doc.only_before, hrow, Printed.span, Printed.tree, Tree.span] using hstart
  · exact Doc.only_nil

/-! ## Patterns and properties -/

@[simp] theorem only_pattern (k : PatKind) (h : ∀ p ∈ ps, p.Fits P) :
    Only P (s.pattern span k ps) := by
  unfold pattern
  split
  all_goals simp +contextual [*] at h ⊢

@[simp] theorem only_accessorKey (word : String) (h : p.Fits P) :
    Only P (s.accessorKey word p) := by
  simp [accessorKey, h]

@[simp] theorem only_functionMarks (p : Printed) : Only P (functionMarks p) := by
  simp [functionMarks]

@[simp] theorem only_property (k : PropKind) (h : ∀ p ∈ ps, p.Fits P) :
    Only P (s.property k ps) := by
  unfold property
  split
  all_goals simp +contextual [*] at h ⊢

theorem only_tagPart (k : PartKind) (h : ∀ p ∈ ps, p.Fits P) : Only P (s.tagPart span k ps) := by
  unfold tagPart
  split
  all_goals simp +contextual [*] at h ⊢

/-! ## Expressions -/

@[simp] theorem only_callee (h : p.Fits P) : Only P (s.callee p) := by
  unfold callee
  split <;> simp [h]

@[simp] theorem only_dotted (h : p.Fits P) : Only P (dotted p) := by
  simp [dotted, Doc.only_before, h, h.span.dot]

@[simp] theorem only_member (h : p.Fits P) (hq : q.Fits P) : Only P (s.member p q) := by
  unfold member
  split <;> simp [Doc.only_before, h, hq, hq.span.digits]

@[simp] theorem only_index (h : p.Fits P) (hq : q.Fits P) : Only P (s.index p q) := by
  unfold index
  split <;> simp [h, hq]

@[simp] theorem only_arguments (h : p.Fits P) : Only P (s.arguments span p.parts) := by
  simp +contextual [arguments, h]

@[simp] theorem only_chain (optional : Bool) (h : p.Fits P) : Only P (s.chain optional span p) := by
  have hparts := h.parts
  cases optional
  all_goals
    unfold chain
    dsimp only
    split
  all_goals simp_all

theorem only_array (h : ∀ p ∈ ps, p.Fits P) : Only P (s.array span ps) := by
  unfold array
  simp only [Doc.only_append, Doc.only_lit, true_and, and_true]
  apply only_list _ _ h
  intro p hp
  split
  · exact Doc.only_nil
  · split <;> simp [hp]

theorem only_object (h : ∀ p ∈ ps, p.Fits P) : Only P (s.object span ps) := by
  have hlist : Only P (s.list .properties span (ps.map (·.entry (·.code)))) :=
    only_list .properties span h fun _ h => h.code
  simp [object, hlist]

@[simp] theorem only_operand (word : Bool) (h : p.Fits P) : Only P (s.operand word p) := by
  simp [operand, h]

@[simp] theorem only_binary (op : BinaryOp) (h : p.Fits P) (hq : q.Fits P) :
    Only P (s.binary op p q) := by
  unfold binary
  simp [h, hq]

@[simp] theorem only_arrow (async isBlock : Bool) {params body typeParams type : Printed}
    (hparams : params.Fits P) (hbody : body.Fits P) (htypeParams : typeParams.Fits P)
    (htype : type.Fits P) : Only P (s.arrow async isBlock span params body typeParams type) := by
  unfold arrow
  simp +contextual [hparams, hbody, htypeParams, htype]

@[simp] theorem only_classRest (h : p.Fits P) : Only P (s.classRest p) := by
  have hparts := h.parts
  unfold classRest
  split
  · simp only [Printed.parts, List.forall_mem_cons] at hparts
    simp +contextual [hparts]
  · exact Doc.only_nil

@[simp] theorem only_classHead (h : p.Fits P) (hq : q.Fits P) : Only P (s.classHead p q) := by
  have htypeParams : Only P ((q.parts[2]?.map (·.code)).getD []) := by
    cases hpart : q.parts[2]? with
    | none => exact Doc.only_nil
    | some part => exact (hq.parts part (List.mem_of_getElem? hpart)).code
  unfold classHead
  simp [h, htypeParams]

@[simp] theorem only_codes (h : p.Fits P) : Only P (p.parts.flatMap (·.code)) :=
  Doc.only_flatMap fun q hq => (h.parts q hq).code

theorem only_expression (k : ExprKind) (h : ∀ p ∈ ps, p.Fits P) :
    Only P (s.expression span k ps) := by
  have harray := @only_array P s ps span h
  have hobject := @only_object P s ps span h
  have hsequence : Only P ((lit "," ++ s.gap).intercalate (ps.map Printed.whole)) :=
    Doc.only_intercalate (by simp) (List.forall_mem_map.mpr fun p hp => (h p hp).whole)
  unfold expression
  split
  all_goals simp +contextual [*] at h ⊢

/-! ## Statements -/

@[simp] theorem only_declarators (h : ∀ p ∈ ps, p.Fits P) : Only P (s.declarators span ps) :=
  only_list _ _ h fun _ h => h.code

@[simp] theorem only_jump (word : String) (h : p.Fits P) : Only P (jump word p) := by
  simp [jump, h]

@[simp] theorem only_loopHead (h : p.Fits P) : Only P (loopHead p) := by
  unfold loopHead
  split <;> simp [h]

@[simp] theorem only_forEach (word : String) {left right body : Printed} (hleft : left.Fits P)
    (hright : right.Fits P) (hbody : body.Fits P) : Only P (s.forEach word left right body) := by
  simp [forEach, hleft, hright, hbody]

theorem only_namespaceRest (p : Printed) (h : ∀ q ∈ p.parts, q.Fits P) :
    Only P (s.namespaceRest p) := by
  fun_induction s.namespaceRest p with
  | case1 declare global span parts code name body ih =>
    have hname : name.Fits P := h name List.mem_cons_self
    have hbody : body.Fits P := h body (List.mem_cons_of_mem _ List.mem_cons_self)
    refine Doc.only_append.mpr ⟨hname.code, ?_⟩
    split
    · exact Doc.only_append.mpr ⟨Doc.only_lit _, ih hbody.parts⟩
    · exact Doc.only_ite Doc.only_nil (Doc.only_append.mpr ⟨only_gap, hbody.code⟩)
  | case2 => exact Doc.only_nil

theorem only_statementCode (hspan : EdgesFit P span) (k : StmtKind) (h : ∀ p ∈ ps, p.Fits P) :
    Only P (s.statementCode span k ps) := by
  have hblock := only_block (s := s) hspan h
  have hnamespace (declare global : Bool) := only_namespaceRest (s := s)
    (.mk (.node (.stmt (.namespace declare global)) span []) [] ps) h
  unfold statementCode
  split
  all_goals first
  | simp +contextual [*] at h ⊢; done
  | -- A namespace, whose word depends on its name.
    dsimp only
    refine Doc.only_append.mpr ⟨Doc.only_append.mpr ⟨by simp, ?_⟩, hnamespace _ _⟩
    refine Doc.only_ite Doc.only_nil ?_
    split <;> simp

@[simp] theorem only_declaration (h : p.Fits P) : Only P (declaration p) := by
  unfold declaration
  split <;> simp [h]

/-! ## Members of classes -/

@[simp] theorem only_wordIf (present : Bool) (word : String) : Only P (wordIf present word) := by
  unfold wordIf
  split <;> simp

@[simp] theorem only_accessibility (m : Modifiers) : Only P (accessibility m) := by
  unfold accessibility
  split <;> simp

@[simp] theorem only_privateMethodHead (kind : MethodKind) (m : Modifiers) (h : p.Fits P) :
    Only P (privateMethodHead kind m p q) := by
  cases kind <;> simp [privateMethodHead, h]

@[simp] theorem only_methodHead (kind : MethodKind) (m : Modifiers) (h : p.Fits P) :
    Only P (s.methodHead kind m p q) := by
  cases kind <;> simp [methodHead, h]

@[simp] theorem only_fieldRest (m : Modifiers) (h : p.Fits P) (hq : q.Fits P) :
    Only P (s.fieldRest m p q) := by
  unfold fieldRest
  simp only [Doc.only_append, Printed.only_led]
  refine ⟨⟨⟨⟨by simp, by simp⟩, by simp [hq]⟩, fun _ => ⟨by simp, ?_⟩⟩, by simp⟩
  split <;> simp [h]

theorem only_classMember (k : MemberKind) (h : ∀ p ∈ ps, p.Fits P) :
    Only P (s.classMember span k ps) := by
  unfold classMember
  split
  all_goals simp +contextual [*] at h ⊢

/-! ## Imports and exports -/

@[simp] theorem only_renamed (h : p.Fits P) (hq : q.Fits P) : Only P (renamed p q) := by
  simp [renamed, h, hq]

@[simp] theorem only_fromModule (h : p.Fits P) (hq : q.Fits P) : Only P (s.fromModule p q) := by
  simp [fromModule, h, hq]

theorem only_names (h : ∀ p ∈ ps, p.Fits P) (which : Printed → Bool) :
    Only P (s.list .names span ((ps.filter which).map (·.entry (·.code)))) :=
  only_list _ _ (fun p hp => h p (List.mem_of_mem_filter hp)) fun _ h => h.code

@[simp] theorem only_importNames (h : p.Fits P) : Only P (s.importNames span p.parts) := by
  have hnames := @only_names P s p.parts span h.parts
  have hothers (which : Printed → Bool) : Only P ((lit "," ++ s.gap).intercalate
      ((p.parts.filter which).map fun p => p.code)) :=
    Doc.only_intercalate (by simp) (List.forall_mem_map.mpr fun q hq =>
      (h.parts q (List.mem_of_mem_filter hq)).code)
  simp [importNames, hnames, hothers]

@[simp] theorem only_exportNames (h : p.Fits P) : Only P (s.exportNames span p.parts).1 := by
  have hnames := @only_names P s p.parts span h.parts
  have hspaces (which : Printed → Bool) : Only P ((p.parts.filter which).flatMap (·.code)) :=
    Doc.only_flatMap fun q hq => (h.parts q (List.mem_of_mem_filter hq)).code
  unfold exportNames
  dsimp only
  split
  · simp [hnames]
  · split <;> simp [hnames, hspaces]

theorem only_item (k : ItemKind) (h : ∀ p ∈ ps, p.Fits P) : Only P (s.item span k ps) := by
  unfold item
  split
  all_goals first
  | simp +contextual [*] at h ⊢; done
  | -- An import, whose phase has a word.
    next phase _ _ _ => cases phase <;> simp +contextual [*] at h ⊢

theorem only_moduleItem (h : p.Fits P) : Only P (s.moduleItem p) := by
  unfold moduleItem
  split <;> simp [h]

theorem only_moduleBlock (h : ∀ p ∈ ps, p.Fits P) : Only P (s.moduleBlock span ps) := by
  have hlist : Only P (s.list .moduleItems span (ps.map (·.entry s.moduleItem))) :=
    only_list _ _ h fun _ => only_moduleItem
  simp [moduleBlock, hlist]

theorem only_module (hspan : EdgesFit P span) (hashbang : Option Text)
    (h : ∀ p ∈ ps, p.Fits P) : Only P (s.module span hashbang ps) := by
  have hitems : Only P (ps.flatMap s.moduleItem) :=
    Doc.only_flatMap fun p hp => only_moduleItem (h p hp)
  unfold module
  cases hashbang <;> simp [hitems, hspan.after]

/-! ## Types -/

@[simp] theorem only_mappedSign (sign : Option MappedSign) (word : String) :
    Only P (mappedSign sign word) := by
  unfold mappedSign
  split <;> simp

@[simp] theorem only_minusIf (negative : Bool) : Only P (minusIf negative) := by
  unfold minusIf
  split <;> simp

@[simp] theorem only_typeList (l : ListStyle) (h : ∀ p ∈ ps, p.Fits P) :
    Only P (s.typeList l span ps) :=
  only_list _ _ h fun _ h => h.code

@[simp] theorem only_signature {mark : Doc} (hmark : Only P mark) (h : ∀ p ∈ ps, p.Fits P) :
    Only P (s.signature span mark ps) := by
  unfold signature
  split
  all_goals simp +contextual [hmark] at h ⊢
  simp [h]

@[simp] theorem only_constructSignature {mark : Doc} (hmark : Only P mark)
    (h : ∀ p ∈ ps, p.Fits P) : Only P (s.constructSignature span mark ps) := by
  unfold constructSignature
  split
  · simp [only_signature hmark h]
  · exact Doc.only_nil

@[simp] theorem only_memberKey (computed : Bool) (h : p.Fits P) :
    Only P (memberKey computed p) := by
  cases computed <;> simp [memberKey, h]

@[simp] theorem only_partAt (h : p.Fits P) (n : Nat) :
    Only P ((p.parts[n]?.map (·.code)).getD []) := by
  cases hpart : p.parts[n]? with
  | none => exact Doc.only_nil
  | some part => exact (h.parts part (List.mem_of_getElem? hpart)).code

theorem only_members (h : ∀ p ∈ ps, p.Fits P) :
    Only P (s.list .members span (ps.map (·.entry fun m => m.code ++ lit ";"))) :=
  only_list _ _ h fun _ h => by simp [h]

theorem only_typeCode (k : TypeKind) (h : ∀ p ∈ ps, p.Fits P) :
    Only P (s.typeCode span k ps) := by
  have hmembers := @only_members P s ps span h
  unfold typeCode
  split
  all_goals simp +contextual [*] at h ⊢

theorem only_typeElement (k : TypeElementKind) (h : ∀ p ∈ ps, p.Fits P) :
    Only P (s.typeElement span k ps) := by
  unfold typeElement
  split
  all_goals simp +contextual [*] at h ⊢

/-! ## Any tree -/

@[simp] theorem only_words (marks : List (Bool × String)) : Only P (words marks) := by
  refine Doc.only_flatMap fun mark _ => ?_
  split
  split <;> simp

theorem only_partCode (k : PartKind) (h : ∀ p ∈ ps, p.Fits P) :
    Only P (s.partCode span k ps) := by
  have hmembers := @only_members P s ps span h
  have hblock := @only_moduleBlock P s ps span h
  have htag := @only_tagPart P s ps span k h
  unfold partCode
  split
  all_goals first
  | simp +contextual [*] at h ⊢
  | -- What is called is an import, whose phase has a word.
    split <;> simp

theorem only_nodeCode (hspan : EdgesFit P span) (k : Kind) (h : ∀ p ∈ ps, p.Fits P) :
    Only P (s.nodeCode k span ps) := by
  have hbefore : Only P (Doc.before span.lo) := (Doc.only_before _).mpr hspan.before
  have hled {d : Doc} (hd : Only P d) :
      Only P (if takesComments k then Doc.before span.lo ++ d else d) :=
    Doc.only_ite (Doc.only_append.mpr ⟨hbefore, hd⟩) hd
  cases k with
  | absent => exact hled Doc.only_nil
  | list => exact hled Doc.only_nil
  | module hashbang => exact hled (only_module hspan hashbang h)
  | expr k => exact hled (only_expression k h)
  | pat k => exact hled (only_pattern k h)
  | stmt k => exact hled (only_statementCode hspan k h)
  | item k => exact hled (only_item k h)
  | type k => exact hled (only_typeCode k h)
  | typeElement k => exact hled (only_typeElement k h)
  | member k => exact hled (only_classMember k h)
  | prop k => exact hled (only_property k h)
  | part k => exact hled (only_partCode k h)

theorem printAll_eq_map (s : Style) (ts : List Tree) : s.printAll ts = ts.map s.print := by
  induction ts with
  | nil => rfl
  | cons t ts ih => rw [printAll, ih, List.map_cons]

/-- Each place for comments in a printed tree is at an edge of one of its nodes. -/
theorem fits_print (t : Tree) : (∀ u ∈ t.nodes, EdgesFit P u.span) → (s.print t).Fits P := by
  induction t using Tree.induct with
  | node kind span parts ih =>
    intro h
    have hspan : EdgesFit P span := h _ (Tree.self_mem_nodes _)
    have hparts : ∀ p ∈ s.printAll parts, p.Fits P := by
      rw [printAll_eq_map, List.forall_mem_map]
      intro part hpart
      exact ih part hpart fun u hu => h u (Tree.mem_nodes_node.mpr (.inr ⟨part, hpart, hu⟩))
    rw [print]
    refine .mk hspan (only_nodeCode hspan kind hparts) ?_
    split
    · exact nofun
    · exact hparts

end Style

theorem Style.fits_print_of_nowhere (s : Style) {t : Tree} (h : ∀ u ∈ t.nodes, u.span = .nowhere) :
    (s.print t).Fits fun place => place.2 = 0 := by
  refine s.fits_print t fun u hu => ?_
  rw [h u hu]
  exact ⟨rfl, rfl, rfl, rfl, rfl⟩

end InlineTemplates.Script
