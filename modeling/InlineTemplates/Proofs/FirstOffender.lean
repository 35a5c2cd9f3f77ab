import InlineTemplates.Proofs.Faces
import InlineTemplates.Proofs.Sample
import InlineTemplates.Proofs.Tracking

/-! # The first name that is taken

A walk through a module looks at one name after the other and keeps the first that is tracked. It
goes on after that, it meets some names twice, and there are nodes that it does not enter. What it
has at the end is the first tracked name in the list of all names that the module declares or assigns
outside of types, in the order of a traversal. -/

namespace InlineTemplates

open Script (Tree Kind)

variable {bindings : List Binding}

/-! ## Names that are taken -/

def patternName? : Tree → Option Occurrence
  | .node (.pat (.name n _)) span _ => some ⟨n, span⟩
  | _ => none

def bareName? : Tree → Option Occurrence
  | .node (.expr (.name n)) span _ => some ⟨n, span⟩
  | _ => none

/-- The name that a node takes: it is a name that is declared or assigned, its key is one, it counts a
name up or down, or it declares a function, a class or an import by name. -/
def nameTaken? : Tree → Option Occurrence
  | .node (.pat (.name n _)) span _ => some ⟨n, span⟩
  | .node (.pat .shorthand) _ (key :: _) => patternName? key
  | .node (.expr (.update _ _)) _ [target] => bareName? target
  | .node (.expr .function) _ (name :: _) | .node (.expr .classExpr) _ (name :: _)
  | .node (.stmt (.function _)) _ (name :: _) | .node (.stmt (.classDecl _)) _ (name :: _)
  | .node (.part (.importNamed _)) _ (name :: _) | .node (.part .importDefault) _ (name :: _)
  | .node (.part .importNamespace) _ (name :: _) => occurrence? name
  | _ => none

/-- The names that are taken in a tree outside of types, each before what stands inside its node. The
key of a property in short form comes twice, with its property and by itself. -/
def namesTaken (t : Tree) : List Occurrence := (valueNodes t).filterMap nameTaken?

def namesTakenOfAll (ts : List Tree) : List Occurrence := ts.flatMap namesTaken

theorem namesTakenOfAll_cons (t : Tree) (ts : List Tree) :
    namesTakenOfAll (t :: ts) = namesTaken t ++ namesTakenOfAll ts := List.flatMap_cons

theorem namesTaken_of_isErased {kind : Kind} {span : Span} {parts : List Tree}
    (h : kind.isErased = true) : namesTaken (.node kind span parts) = [] := by
  rw [namesTaken, valueNodes, if_pos h]
  rfl

theorem namesTaken_node {kind : Kind} {span : Span} {parts : List Tree} (h : kind.isErased = false) :
    namesTaken (.node kind span parts) =
      (nameTaken? (.node kind span parts)).toList ++ namesTakenOfAll parts := by
  have hparts : (valueNodesOfAll parts).filterMap nameTaken? = namesTakenOfAll parts := by
    rw [valueNodesOfAll_eq_flatMap, List.filterMap_flatMap]
    rfl
  rw [namesTaken, valueNodes_node h, List.filterMap_cons, hparts]
  cases nameTaken? (.node kind span parts) <;> rfl

theorem ownDeclaration?_update (increment prefixed : Bool) (span : Span) (target : Tree) :
    ownDeclaration? (.node (.expr (.update increment prefixed)) span [target]) =
      bareName? target := by
  obtain ⟨kind, s, parts⟩ := target
  cases kind with
  | expr k => cases k <;> rfl
  | _ => rfl

theorem nameTaken?_node (kind : Kind) (span : Span) (parts : List Tree) :
    nameTaken? (.node kind span parts) = ownDeclaration? (.node kind span parts) ∨
      ∃ key others, kind = .pat .shorthand ∧ parts = key :: others := by
  cases kind with
  | expr k =>
    refine .inl ?_
    cases k with
    | update increment prefixed =>
      match parts with
      | [] | _ :: _ :: _ => rfl
      | [target] => exact (ownDeclaration?_update increment prefixed span target).symm
    | function | classExpr => cases parts <;> rfl
    | _ => rfl
  | pat k =>
    cases k with
    | shorthand =>
      cases parts with
      | nil => exact .inl rfl
      | cons key others => exact .inr ⟨key, others, rfl, rfl⟩
    | _ => exact .inl rfl
  | stmt k =>
    refine .inl ?_
    cases k with
    | function _ | classDecl _ => cases parts <;> rfl
    | _ => rfl
  | part k =>
    refine .inl ?_
    cases k with
    | importNamed _ | importDefault | importNamespace => cases parts <;> rfl
    | _ => rfl
  | _ => exact .inl rfl

theorem namesTaken_of_patternName? {key : Tree} {o : Occurrence} (h : patternName? key = some o) :
    ∃ others, namesTaken key = o :: others := by
  unfold patternName? at h
  split at h
  · next n optional span parts =>
    cases h
    exact ⟨namesTakenOfAll parts, namesTaken_node rfl⟩
  · cases h

theorem findSome?_namesTaken {α : Type} (f : Occurrence → Option α) (t : Tree) :
    (namesTaken t).findSome? f = (declarations t).findSome? f := by
  induction t using Tree.induct with
  | node kind span parts ih =>
    have hparts : (namesTakenOfAll parts).findSome? f = (declarationsOfAll parts).findSome? f := by
      rw [declarationsOfAll_eq_flatMap, namesTakenOfAll]
      clear span
      induction parts with
      | nil => rfl
      | cons p ps ihs =>
        obtain ⟨hp, hps⟩ := List.forall_mem_cons.mp ih
        rw [List.flatMap_cons, List.flatMap_cons, List.findSome?_append, List.findSome?_append, hp,
          ihs hps]
    rw [declarations, isTypeOnly_eq_isErased]
    cases hkind : kind.isErased with
    | true =>
      rw [namesTaken_of_isErased hkind]
      rfl
    | false =>
      rw [namesTaken_node hkind, if_neg Bool.false_ne_true, List.findSome?_append,
        List.findSome?_append, ← hparts]
      rcases nameTaken?_node kind span parts with heq | ⟨key, others, rfl, rfl⟩
      · rw [heq]
      · have htaken : nameTaken? (.node (.pat .shorthand) span (key :: others)) =
            patternName? key := rfl
        have hown : ownDeclaration? (.node (.pat .shorthand) span (key :: others)) = none := rfl
        rw [htaken, hown]
        cases hkey : patternName? key with
        | none => rfl
        | some o =>
          obtain ⟨inner, hinner⟩ := namesTaken_of_patternName? hkey
          rw [namesTakenOfAll, List.flatMap_cons, hinner]
          cases hf : f o <;> simp [hf]

/-! ## The walk -/

/-- Looks at a name with what was found before: the first tracked name stays. -/
def look (bindings : List Binding) (found : Option TransformError) (o : Occurrence) :
    Option TransformError :=
  match found with
  | some e => some e
  | none => shadowing? bindings o

/-- Whether the walk leaves out the parts of such nodes: types, names that are declared or assigned,
and specifiers of imports. -/
def Script.Kind.isClosed : Kind → Bool
  | .type _ | .typeElement _ => true
  | .pat (.name _ _) => true
  | .part (.importNamed _) | .part .importDefault | .part .importNamespace => true
  | _ => false

mutual
/-- The walk: it looks at the name that a node takes, then it goes through the parts. -/
def walk (bindings : List Binding) (found : Option TransformError) : Tree → Option TransformError
  | .node kind span parts =>
    let seen := match nameTaken? (.node kind span parts) with
      | some o => look bindings found o
      | none => found
    if kind.isClosed then seen else walkAll bindings seen parts

def walkAll (bindings : List Binding) (found : Option TransformError) :
    List Tree → Option TransformError
  | [] => found
  | t :: ts => walkAll bindings (walk bindings found t) ts
end

/-- Whether a tree is the type behind a name, or missing. -/
def Script.Tree.annotates : Tree → Bool
  | .node .absent _ parts => parts.isEmpty
  | .node (.part .annotatedType) _ types => types.all (·.isType)
  | _ => false

/-- Whether a tree is a name or a string that stands for itself, or missing. -/
def Script.Tree.isLabel : Tree → Bool
  | .node .absent _ parts | .node (.part (.name _)) _ parts
  | .node (.part (.string _ _)) _ parts => parts.isEmpty
  | _ => false

/-- Whether a node of this kind may have these parts: a name that is declared or assigned has at most
a type, and a specifier has names and strings. -/
def Script.Kind.closes : Kind → List Tree → Bool
  | .pat (.name _ _), parts => parts.all (·.annotates)
  | .part (.importNamed _), parts | .part .importDefault, parts
  | .part .importNamespace, parts => parts.all (·.isLabel)
  | _, _ => true

/-- Whether every node of the tree that the walk does not enter has nothing to look at in it. -/
def Script.Tree.isWellClosed (t : Tree) : Bool := t.nodes.all fun u => u.kind.closes u.parts

theorem Script.Tree.isWellClosed_node {kind : Kind} {span : Span} {parts : List Tree} :
    (Tree.node kind span parts).isWellClosed = true ↔
      kind.closes parts = true ∧ ∀ p ∈ parts, p.isWellClosed = true := by
  simp only [isWellClosed, List.all_eq_true, mem_nodes_node]
  constructor
  · intro h
    exact ⟨h _ (.inl rfl), fun p hp u hu => h u (.inr ⟨p, hp, hu⟩)⟩
  · rintro ⟨hroot, hparts⟩ u (rfl | ⟨p, hp, hu⟩)
    · exact hroot
    · exact hparts p hp u hu

theorem namesTakenOfAll_eq_nil {ts : List Tree} (h : ∀ t ∈ ts, namesTaken t = []) :
    namesTakenOfAll ts = [] := List.flatMap_eq_nil_iff.mpr h

theorem namesTaken_of_annotates {t : Tree} (h : t.annotates = true) : namesTaken t = [] := by
  unfold Script.Tree.annotates at h
  split at h
  · rw [List.isEmpty_iff.mp h]
    rfl
  · next span types =>
    rw [namesTaken_node rfl, namesTakenOfAll_eq_nil fun t ht => ?_]
    · rfl
    · have htype := List.all_eq_true.mp h t ht
      obtain ⟨kind, s, parts⟩ := t
      cases kind with
      | type k => exact namesTaken_of_isErased rfl
      | _ => cases htype
  · cases h

theorem namesTaken_of_isLabel {t : Tree} (h : t.isLabel = true) : namesTaken t = [] := by
  unfold Script.Tree.isLabel at h
  split at h
  · rw [List.isEmpty_iff.mp h]
    rfl
  · rw [List.isEmpty_iff.mp h]
    rfl
  · rw [List.isEmpty_iff.mp h]
    rfl
  · cases h

theorem namesTaken_of_isClosed {kind : Kind} {span : Span} {parts : List Tree}
    (hclosed : kind.isClosed = true) (hparts : kind.closes parts = true) :
    namesTaken (.node kind span parts) = (nameTaken? (.node kind span parts)).toList := by
  cases kind with
  | type k | typeElement k =>
    rw [namesTaken_of_isErased rfl]
    rfl
  | pat k =>
    cases k with
    | name n optional =>
      have hinner := namesTakenOfAll_eq_nil fun t ht =>
        namesTaken_of_annotates (List.all_eq_true.mp hparts t ht)
      rw [namesTaken_node rfl, hinner, List.append_nil]
    | _ => cases hclosed
  | part k =>
    cases k with
    | importNamed _ | importDefault | importNamespace =>
      have hinner := namesTakenOfAll_eq_nil fun t ht =>
        namesTaken_of_isLabel (List.all_eq_true.mp hparts t ht)
      rw [namesTaken_node rfl, hinner, List.append_nil]
    | _ => cases hclosed
  | _ => cases hclosed

theorem isErased_of_not_isClosed {kind : Kind} (h : kind.isClosed = false) :
    kind.isErased = false := by
  cases kind with
  | type _ | typeElement _ => cases h
  | _ => rfl

theorem look_eq (found : Option TransformError) (o : Occurrence) :
    look bindings found o = found.or (shadowing? bindings o) := by
  cases found <;> rfl

theorem walkAll_eq {ts : List Tree}
    (h : ∀ t ∈ ts, ∀ found, walk bindings found t =
      found.or ((namesTaken t).findSome? (shadowing? bindings))) (found : Option TransformError) :
    walkAll bindings found ts =
      found.or ((namesTakenOfAll ts).findSome? (shadowing? bindings)) := by
  induction ts generalizing found with
  | nil => cases found <;> rfl
  | cons t ts ih =>
    obtain ⟨ht, hts⟩ := List.forall_mem_cons.mp h
    rw [walkAll, ih hts, ht, namesTakenOfAll_cons, List.findSome?_append, Option.or_assoc]

/-- The walk finds what was found before it or the first tracked name that is taken. -/
theorem walk_eq {t : Tree} (h : t.isWellClosed = true) (found : Option TransformError) :
    walk bindings found t = found.or ((namesTaken t).findSome? (shadowing? bindings)) := by
  induction t using Tree.induct generalizing found with
  | node kind span parts ih =>
    obtain ⟨hroot, hparts⟩ := Script.Tree.isWellClosed_node.mp h
    have hseen : (match nameTaken? (.node kind span parts) with
        | some o => look bindings found o
        | none => found) =
          found.or ((nameTaken? (.node kind span parts)).toList.findSome? (shadowing? bindings)) := by
      cases nameTaken? (.node kind span parts) with
      | some o => simp [look_eq]
      | none => simp
    rw [walk, hseen]
    -- A node that is not entered adds its own name only, any other one those of its parts as well.
    cases hclosed : kind.isClosed with
    | true => rw [if_pos rfl, namesTaken_of_isClosed hclosed hroot]
    | false =>
      rw [if_neg Bool.false_ne_true, walkAll_eq fun p hp => ih p hp (hparts p hp),
        namesTaken_node (isErased_of_not_isClosed hclosed), List.findSome?_append, Option.or_assoc]

/-! ## The check -/

theorem checkShadowing_eq_namesTaken (m : Tree) : checkShadowing bindings m =
    match (namesTaken m).findSome? (shadowing? bindings) with
    | some e => .error e
    | none => .ok () := by
  rw [findSome?_namesTaken]
  rfl

theorem checkShadowing_iff_namesTaken (m : Tree) :
    (checkShadowing bindings m = .ok () ↔
      (namesTaken m).findSome? (shadowing? bindings) = none) ∧
    ∀ e, checkShadowing bindings m = .error e ↔
      (namesTaken m).findSome? (shadowing? bindings) = some e := by
  rw [checkShadowing_eq_namesTaken]
  cases (namesTaken m).findSome? (shadowing? bindings) with
  | none => simp
  | some e => simp

theorem shadowing?_eq_some_iff (h : (bindings.map (·.name)).Nodup) {o : Occurrence}
    {e : TransformError} : shadowing? bindings o = some e ↔
      ∃ b ∈ bindings, b.name = o.name ∧ e = ⟨o.span, .shadowed b.source o.name⟩ := by
  simp only [shadowing?, Option.map_eq_some_iff, Binding.find?_eq_some_iff_of_nodup h, and_assoc]
  exact exists_congr fun b => and_congr_right fun _ => and_congr_right fun _ => eq_comm

theorem checkShadowing_eq_error_iff (h : (bindings.map (·.name)).Nodup) {m : Tree}
    {e : TransformError} : checkShadowing bindings m = .error e ↔
      ∃ before o after, namesTaken m = before ++ o :: after ∧
        (∀ other ∈ before, ¬ Tracked bindings other.name) ∧
        ∃ b ∈ bindings, b.name = o.name ∧ e = ⟨o.span, .shadowed b.source o.name⟩ := by
  rw [(checkShadowing_iff_namesTaken m).2, List.findSome?_eq_some_iff]
  simp only [shadowing?_eq_some_iff h, shadowing?_eq_none_iff]
  constructor
  · rintro ⟨before, o, after, hlist, hfirst, hbefore⟩
    exact ⟨before, o, after, hlist, hbefore, hfirst⟩
  · rintro ⟨before, o, after, hlist, hbefore, hfirst⟩
    exact ⟨before, o, after, hlist, hfirst, hbefore⟩

theorem checkShadowing_eq_ok_iff_namesTaken {m : Tree} : checkShadowing bindings m = .ok () ↔
    ∀ o ∈ namesTaken m, ¬ Tracked bindings o.name := by
  rw [(checkShadowing_iff_namesTaken m).1, List.findSome?_eq_none_iff]
  simp only [shadowing?_eq_none_iff]

theorem tracked_joined {others : List Binding} {name : Text} :
    Tracked (bindings ++ others) name ↔ Tracked bindings name ∨ Tracked others name := by
  simp only [Tracked, List.mem_append, or_and_right, exists_or]

/-- **The first tracked name that is taken is the one that is reported.** The check passes just when
no name that is taken is tracked. Else its error is for the first one in the list, with its span, its
name and the source of the only binding with that name. A walk that keeps the first tracked name it
meets finds the same, though it does not enter all nodes. The order of the bindings does not matter,
and with more bindings the check passes just when it does for both lists. -/
theorem first_offender_reported (h : (bindings.map (·.name)).Nodup) (m : Tree) :
    (checkShadowing bindings m = .ok () ↔ ∀ o ∈ namesTaken m, ¬ Tracked bindings o.name) ∧
    (∀ e, checkShadowing bindings m = .error e ↔
      ∃ before o after, namesTaken m = before ++ o :: after ∧
        (∀ other ∈ before, ¬ Tracked bindings other.name) ∧
        ∃ b ∈ bindings, b.name = o.name ∧ e = ⟨o.span, .shadowed b.source o.name⟩) ∧
    (m.isWellClosed = true → checkShadowing bindings m =
      match walk bindings none m with
      | some e => .error e
      | none => .ok ()) ∧
    (∀ bindings', bindings.Perm bindings' →
      checkShadowing bindings' m = checkShadowing bindings m) ∧
    ∀ others, checkShadowing (bindings ++ others) m = .ok () ↔
      checkShadowing bindings m = .ok () ∧ checkShadowing others m = .ok () := by
  refine ⟨checkShadowing_eq_ok_iff_namesTaken, fun e => checkShadowing_eq_error_iff h,
    fun hclosed => ?_, fun bindings' hperm => ?_, fun others => ?_⟩
  · rw [checkShadowing_eq_namesTaken, walk_eq hclosed, Option.none_or]
  · have hsame : shadowing? bindings' = shadowing? bindings := by
      funext o
      rw [shadowing?, shadowing?, Binding.find?_perm_of_nodup h hperm]
    rw [checkShadowing, checkShadowing, hsame]
  · simp only [checkShadowing_eq_ok_iff_namesTaken, tracked_joined, not_or, forall_and]

section
open Sample

namespace Sample

def otherTag : Text := text "tpl"

/-- `const { tpl } = a;` -/
def keyDeclared : Tree :=
  .stmt (.var .const false) .nowhere
    [.ofPart (.declarator false) .nowhere
      [.pat (.object false) .nowhere
        [.list [.pat .shorthand ⟨9, 12⟩ [.pat (.name otherTag false) ⟨9, 12⟩ [.absent], .absent]],
          .absent], word (text "a")]]

/-- `hbs++;` -/
def countedUp : Tree :=
  statement (.expr (.update true false) ⟨20, 25⟩ [.expr (.name tag) ⟨20, 23⟩ []])

def trackedTwo : List Binding := [⟨Target.standard.source, tag⟩, ⟨text "ember", otherTag⟩]

end Sample

/-- Of two tracked names the one that comes first in the module is reported. -/
theorem first_offender_reported_twoTags :
    let m := moduleOf [keyDeclared, countedUp]
    (trackedTwo.map (·.name)).Nodup ∧ m.isWellClosed = true ∧
    namesTaken m = [⟨otherTag, ⟨9, 12⟩⟩, ⟨otherTag, ⟨9, 12⟩⟩, ⟨tag, ⟨20, 23⟩⟩] ∧
    checkShadowing trackedTwo m = .error ⟨⟨9, 12⟩, .shadowed (text "ember") otherTag⟩ ∧
    (match walk trackedTwo none m with
      | some e => .error e
      | none => .ok ()) = (.error ⟨⟨9, 12⟩, .shadowed (text "ember") otherTag⟩ : Except _ Unit) ∧
    checkShadowing trackedTwo.reverse m = checkShadowing trackedTwo m ∧
    ¬ checkShadowing (tracked ++ trackedTwo) m = .ok () := by
  intro m
  have hnodup : (trackedTwo.map (·.name)).Nodup := by decide
  have hclosed : m.isWellClosed = true := by decide
  have hnames : namesTaken m =
      [⟨otherTag, ⟨9, 12⟩⟩, ⟨otherTag, ⟨9, 12⟩⟩, ⟨tag, ⟨20, 23⟩⟩] := by decide
  obtain ⟨-, herror, hwalk, horder, -⟩ := first_offender_reported hnodup m
  have hfound : checkShadowing trackedTwo m =
      .error ⟨⟨9, 12⟩, .shadowed (text "ember") otherTag⟩ :=
    (herror _).mpr ⟨[], _, _, hnames, by decide, ⟨text "ember", otherTag⟩, by decide, rfl, rfl⟩
  have htracked : (tracked.map (·.name)).Nodup := by decide
  have hjoined := (first_offender_reported htracked m).2.2.2.2 trackedTwo
  refine ⟨hnodup, hclosed, hnames, hfound, (hwalk hclosed).symm.trans hfound,
    horder _ (List.reverse_perm _).symm, fun hok => ?_⟩
  rw [(hjoined.mp hok).2] at hfound
  cases hfound

end

end InlineTemplates
