import InlineTemplates.Proofs.Faces
import InlineTemplates.Proofs.Sample

/-! # Names of parameters in types

A function type and a signature name their parameters, and these names bind nothing. The check of
names does not see them in a type or in a member of an interface: they may be called anything. Only
an index signature of a class is neither of the two, and there the check takes the name for a
declaration. -/

namespace InlineTemplates

open Script (Tree Kind)

variable {bindings : List Binding} {rename : Text → Text → Prop}

/-! ## Trees with other names of parameters -/

/-- Whether a node of this kind is a signature that begins with its parameters. -/
def Script.Kind.beginsWithParameters : Kind → Bool
  | .type .function | .type (.constructor _) => true
  | .typeElement .call | .typeElement .construct | .typeElement (.index _) => true
  | _ => false

/-- Whether a node of this kind is a part of a pattern that holds names, and is none itself. -/
def Script.Kind.holdsNames : Kind → Bool
  | .list => true
  | .pat (.name _ _) => false
  | .pat _ => true
  | _ => false

mutual
/-- The trees are the same, except that parameters of signatures in types have other names, whatever
these are. The parameter of an index signature of a class has another name only where the relation on
names admits it. -/
inductive Renamed (rename : Text → Text → Prop) : Tree → Tree → Prop
  | node {kind span ts us} (h : AllRenamed rename ts us) :
      Renamed rename (.node kind span ts) (.node kind span us)
  | signature {kind span s params params' ts us} (hkind : kind.beginsWithParameters = true)
      (hparams : AllParametersRenamed rename (fun _ _ => True) params params')
      (h : AllRenamed rename ts us) :
      Renamed rename (.node kind span (.node .list s params :: ts))
        (.node kind span (.node .list s params' :: us))
  | method {computed optional span key key' s params params' ts us} (hkey : Renamed rename key key')
      (hparams : AllParametersRenamed rename (fun _ _ => True) params params')
      (h : AllRenamed rename ts us) :
      Renamed rename
        (.node (.typeElement (.method computed optional)) span (key :: .node .list s params :: ts))
        (.node (.typeElement (.method computed optional)) span (key' :: .node .list s params' :: us))
  | setter {computed span key key' param param'} (hkey : Renamed rename key key')
      (hparam : ParameterRenamed rename (fun _ _ => True) param param') :
      Renamed rename (.node (.typeElement (.setter computed)) span [key, param])
        (.node (.typeElement (.setter computed)) span [key', param'])
  | classIndex {readonly static span s params params' ts us}
      (hparams : AllParametersRenamed rename rename params params') (h : AllRenamed rename ts us) :
      Renamed rename
        (.node (.member (.index readonly static)) span (.node .list s params :: ts))
        (.node (.member (.index readonly static)) span (.node .list s params' :: us))

inductive AllRenamed (rename : Text → Text → Prop) : List Tree → List Tree → Prop
  | nil : AllRenamed rename [] []
  | cons {t u ts us} (h : Renamed rename t u) (hs : AllRenamed rename ts us) :
      AllRenamed rename (t :: ts) (u :: us)

/-- The patterns are the same, except that names in them are others, as far as `admits` goes. -/
inductive ParameterRenamed (rename : Text → Text → Prop) : (Text → Text → Prop) → Tree → Tree → Prop
  | name {admits : Text → Text → Prop} {n n' optional span ts us} (hname : admits n n')
      (h : AllRenamed rename ts us) :
      ParameterRenamed rename admits (.node (.pat (.name n optional)) span ts)
        (.node (.pat (.name n' optional)) span us)
  | within {admits kind span ts us} (hkind : kind.holdsNames = true)
      (h : AllParametersRenamed rename admits ts us) :
      ParameterRenamed rename admits (.node kind span ts) (.node kind span us)
  | other {admits t u} (h : Renamed rename t u) : ParameterRenamed rename admits t u

inductive AllParametersRenamed (rename : Text → Text → Prop) :
    (Text → Text → Prop) → List Tree → List Tree → Prop
  | nil {admits} : AllParametersRenamed rename admits [] []
  | cons {admits t u ts us} (h : ParameterRenamed rename admits t u)
      (hs : AllParametersRenamed rename admits ts us) :
      AllParametersRenamed rename admits (t :: ts) (u :: us)
end

mutual
theorem Renamed.refl : ∀ t : Tree, Renamed rename t t
  | .node _ _ parts => .node (AllRenamed.refl parts)

theorem AllRenamed.refl : ∀ ts : List Tree, AllRenamed rename ts ts
  | [] => .nil
  | t :: ts => .cons (Renamed.refl t) (AllRenamed.refl ts)
end

theorem Renamed.sameFace {t u : Tree} (h : Renamed rename t u) : SameFace t u := by
  cases h <;> exact ⟨.inl rfl, rfl⟩

theorem AllRenamed.sameFaces {ts us : List Tree} (h : AllRenamed rename ts us) :
    List.Forall₂ SameFace ts us := by
  induction ts generalizing us with
  | nil =>
    cases h
    exact .nil
  | cons t ts ih =>
    cases h with
    | cons h hs => exact .cons h.sameFace (ih hs)

/-! ## What the check finds -/

def shadowings (bindings : List Binding) (t : Tree) : List TransformError :=
  (declarations t).filterMap (shadowing? bindings)

def shadowingsOfAll (bindings : List Binding) (ts : List Tree) : List TransformError :=
  (declarationsOfAll ts).filterMap (shadowing? bindings)

theorem checkShadowing_eq (bindings : List Binding) (m : Tree) :
    checkShadowing bindings m = match (shadowings bindings m).head? with
      | some e => .error e
      | none => .ok () := by
  cases hfound : (declarations m).findSome? (shadowing? bindings) with
  | none => simp only [checkShadowing, shadowings, List.head?_filterMap, hfound]
  | some e => simp only [checkShadowing, shadowings, List.head?_filterMap, hfound]

theorem shadowings_of_isErased {kind : Kind} {span : Span} {parts : List Tree}
    (h : kind.isErased = true) : shadowings bindings (.node kind span parts) = [] := by
  rw [shadowings, declarations, isTypeOnly_eq_isErased, if_pos h]
  rfl

theorem shadowings_node {kind : Kind} {span : Span} {parts : List Tree}
    (h : kind.isErased = false) : shadowings bindings (.node kind span parts) =
      (ownDeclaration? (.node kind span parts)).toList.filterMap (shadowing? bindings) ++
        shadowingsOfAll bindings parts := by
  rw [shadowings, declarations, isTypeOnly_eq_isErased, h, if_neg Bool.false_ne_true,
    List.filterMap_append]
  rfl

theorem shadowingsOfAll_cons (t : Tree) (ts : List Tree) : shadowingsOfAll bindings (t :: ts) =
    shadowings bindings t ++ shadowingsOfAll bindings ts := by
  rw [shadowingsOfAll, declarationsOfAll, List.filterMap_append]
  rfl

theorem ownDeclaration?_of_holdsNames {kind : Kind} {span : Span} {parts : List Tree}
    (h : kind.holdsNames = true) : ownDeclaration? (.node kind span parts) = none := by
  cases kind with
  | list => rfl
  | pat k =>
    cases k with
    | name n optional => cases h
    | _ => rfl
  | _ => cases h

theorem isErased_of_holdsNames {kind : Kind} (h : kind.holdsNames = true) :
    kind.isErased = false := by
  cases kind with
  | list | pat _ => rfl
  | _ => cases h

theorem isErased_of_beginsWithParameters {kind : Kind} (h : kind.beginsWithParameters = true) :
    kind.isErased = true := by
  cases kind with
  | type _ | typeElement _ => rfl
  | _ => cases h

/-- One name is as good as the other to the check: none of them is tracked, or they are the same. -/
def SameToCheck (bindings : List Binding) (n n' : Text) : Prop :=
  n = n' ∨ (¬ Tracked bindings n ∧ ¬ Tracked bindings n')

theorem SameToCheck.shadowing?_eq {n n' : Text} (h : SameToCheck bindings n n') (span : Span) :
    shadowing? bindings ⟨n, span⟩ = shadowing? bindings ⟨n', span⟩ := by
  rcases h with rfl | ⟨hn, hn'⟩
  · rfl
  · rw [shadowing?_eq_none_iff.mpr hn, shadowing?_eq_none_iff.mpr hn']

mutual
theorem Renamed.shadowings_eq : ∀ {t u : Tree}, Renamed (SameToCheck bindings) t u →
    shadowings bindings t = shadowings bindings u
  | .node kind span _, _, .node h => by
    cases hkind : kind.isErased with
    | true => rw [shadowings_of_isErased hkind, shadowings_of_isErased hkind]
    | false =>
      rw [shadowings_node hkind, shadowings_node hkind, ownDeclaration?_congr h.sameFaces,
        h.shadowings_eq]
  | _, _, .signature hkind _ _ => by
    have herased := isErased_of_beginsWithParameters hkind
    rw [shadowings_of_isErased herased, shadowings_of_isErased herased]
  | _, _, .method _ _ _ | _, _, .setter _ _ => by
    rw [shadowings_of_isErased rfl, shadowings_of_isErased rfl]
  | _, _, .classIndex hparams h => by
    have hlist (s : Span) (ps : List Tree) :
        shadowings bindings (.node .list s ps) = shadowingsOfAll bindings ps := shadowings_node rfl
    rw [shadowings_node rfl, shadowings_node rfl, shadowingsOfAll_cons, shadowingsOfAll_cons, hlist,
      hlist, hparams.shadowings_eq, h.shadowings_eq]
    rfl

theorem AllRenamed.shadowings_eq : ∀ {ts us : List Tree},
    AllRenamed (SameToCheck bindings) ts us →
      shadowingsOfAll bindings ts = shadowingsOfAll bindings us
  | _, _, .nil => rfl
  | _, _, .cons h hs => by
    rw [shadowingsOfAll_cons, shadowingsOfAll_cons, h.shadowings_eq, hs.shadowings_eq]

theorem ParameterRenamed.shadowings_eq : ∀ {t u : Tree},
    ParameterRenamed (SameToCheck bindings) (SameToCheck bindings) t u →
      shadowings bindings t = shadowings bindings u
  | _, _, .name hname h => by
    have hown {n : Text} {optional span} {ps : List Tree} :
        ownDeclaration? (.node (.pat (.name n optional)) span ps) = some ⟨n, span⟩ := rfl
    rw [shadowings_node rfl, shadowings_node rfl, hown, hown, h.shadowings_eq]
    simp only [Option.toList_some, List.filterMap_cons, hname.shadowing?_eq]
  | _, _, .within hkind h => by
    have herased := isErased_of_holdsNames hkind
    rw [shadowings_node herased, shadowings_node herased, ownDeclaration?_of_holdsNames hkind,
      ownDeclaration?_of_holdsNames hkind, h.shadowings_eq]
  | _, _, .other h => h.shadowings_eq

theorem AllParametersRenamed.shadowings_eq : ∀ {ts us : List Tree},
    AllParametersRenamed (SameToCheck bindings) (SameToCheck bindings) ts us →
      shadowingsOfAll bindings ts = shadowingsOfAll bindings us
  | _, _, .nil => rfl
  | _, _, .cons h hs => by
    rw [shadowingsOfAll_cons, shadowingsOfAll_cons, h.shadowings_eq, hs.shadowings_eq]
end

/-! ## Mentions in types and in classes -/

theorem isErased_of_word? {kind : Kind} {n : Text} (h : kind.word? = some n) :
    kind.isErased = false := by
  cases kind with
  | part _ | expr _ | pat _ => rfl
  | _ => cases h

theorem occurrence?_of_ownDeclaration? {t : Tree} {o : Occurrence} (h : ownDeclaration? t = some o) :
    ∃ u ∈ valueNodes t, occurrence? u = some o := by
  have hfirst {kind : Kind} {span : Span} {name : Tree} {others : List Tree}
      (hkind : kind.isErased = false) (hname : occurrence? name = some o) :
      ∃ u ∈ valueNodes (.node kind span (name :: others)), occurrence? u = some o := by
    have hword := hname
    rw [occurrence?_eq_word, Option.map_eq_some_iff] at hword
    obtain ⟨n, hword, -⟩ := hword
    exact ⟨name, mem_valueNodes_of_part hkind List.mem_cons_self
      (self_mem_valueNodes (isErased_of_word? hword)), hname⟩
  unfold ownDeclaration? at h
  split at h
  · exact ⟨_, self_mem_valueNodes rfl, h⟩
  · split at h
    · exact hfirst rfl h
    · cases h
  · exact hfirst rfl h
  · exact hfirst rfl h
  · exact hfirst rfl h
  · exact hfirst rfl h
  · exact hfirst rfl h
  · exact hfirst rfl h
  · exact hfirst rfl h
  · cases h

theorem checkShadowing_of_not_mentioned {m : Tree}
    (h : ∀ u ∈ valueNodes m, ∀ o, occurrence? u = some o → ¬ Tracked bindings o.name) :
    checkShadowing bindings m = .ok () := by
  rw [checkShadowing_eq_ok_iff]
  intro u hu o ho
  obtain ⟨v, hv, hoccurrence⟩ := occurrence?_of_ownDeclaration? ho
  exact h v (valueNodes_trans hv hu) o hoccurrence

/-- A node is the index signature of a class with a parameter of this name. -/
inductive ClassIndexOf (n : Text) : Tree → Prop
  | mk {readonly static span s params others optional s' parts}
      (hparam : .node (.pat (.name n optional)) s' parts ∈ params) :
      ClassIndexOf n
        (.node (.member (.index readonly static)) span (.node .list s params :: others))

theorem refused_of_classIndexOf {m u : Tree} {n : Text} (hu : u ∈ valueNodes m)
    (h : ClassIndexOf n u) (hn : Tracked bindings n) : ∃ e, checkShadowing bindings m = .error e := by
  obtain @⟨readonly, static, span, s, params, others, optional, s', parts, hparam⟩ := h
  have hlist : Script.Tree.node (.pat (.name n optional)) s' parts ∈
      valueNodes (.node .list s params) :=
    mem_valueNodes_of_part rfl hparam (self_mem_valueNodes rfl)
  have hmember : Script.Tree.node (.pat (.name n optional)) s' parts ∈ valueNodes m :=
    valueNodes_trans (mem_valueNodes_of_part rfl List.mem_cons_self hlist) hu
  cases hcheck : checkShadowing bindings m with
  | error e => exact ⟨e, rfl⟩
  | ok _ => exact absurd hn (not_tracked_of_ownDeclaration hcheck hmember rfl)

/-- **The check does not see what parameters of signatures in types are called.** With other names the
result is the same, error and place included, if the parameters of index signatures of classes change
only among names that are not tracked. Mentions of a tracked name in types alone are let through, and
one in an index signature of a class is refused. -/
theorem signature_names_unseen (bindings : List Binding) :
    (∀ {m m' : Tree}, Renamed (SameToCheck bindings) m m' →
      checkShadowing bindings m = checkShadowing bindings m') ∧
    (∀ {m : Tree}, (∀ u ∈ valueNodes m, ∀ o, occurrence? u = some o → ¬ Tracked bindings o.name) →
      checkShadowing bindings m = .ok ()) ∧
    ∀ {m u : Tree} {n : Text}, u ∈ valueNodes m → ClassIndexOf n u → Tracked bindings n →
      ∃ e, checkShadowing bindings m = .error e := by
  refine ⟨fun h => ?_, checkShadowing_of_not_mentioned, refused_of_classIndexOf⟩
  rw [checkShadowing_eq, checkShadowing_eq, h.shadowings_eq]

section
open Sample

namespace Sample

def keywordType (word : String) : Tree :=
  .ofPart .annotatedType .nowhere [.type (.keyword word) .nowhere []]

/-- `n: string` -/
def stringParameter (n : Text) : Tree :=
  .pat (.name n false) ⟨12, 23⟩ [keywordType "string"]

/-- `type F = (n: string) => void` -/
def functionType (n : Text) : Tree :=
  .stmt (.typeAlias false) .nowhere
    [partWord (text "F"), .absent,
      .type .function .nowhere [.list [stringParameter n], .absent, keywordType "void"]]

/-- `[n: string]: any` -/
def indexMember (n : Text) : Tree :=
  .member (.index false false) .nowhere [.list [stringParameter n], keywordType "any"]

/-- `class A { [n: string]: any }` -/
def indexedClass (n : Text) : Tree :=
  .stmt (.classDecl false) .nowhere
    [partWord (text "A"), .ofPart (.classBody false) .nowhere
      [.list [indexMember n], .absent, .absent, .absent, .list []]]

end Sample

theorem renamed_functionType (n n' : Text) (rename : Text → Text → Prop) :
    Renamed rename (functionType n) (functionType n') := by
  refine .node (.cons (.refl _) (.cons (.refl _) (.cons ?_ .nil)))
  exact .signature rfl (.cons (.name trivial (.refl _)) .nil) (.refl _)

theorem renamed_indexedClass {n n' : Text} (h : rename n n') :
    Renamed rename (indexedClass n) (indexedClass n') := by
  have hindex : Renamed rename (indexMember n) (indexMember n') :=
    .classIndex (.cons (.name h (.refl _)) .nil) (.refl _)
  refine .node (.cons (.refl _) (.cons (.node ?_) .nil))
  exact .cons (.node (.cons hindex .nil)) (.refl _)

/-- A function type may call its parameter like the tag, and a class may call that of its index
signature anything else. -/
theorem signature_names_unseen_functionType :
    let m := moduleOf [functionType tag, indexedClass (text "a"), statement plainUse]
    let m' := moduleOf [functionType (text "x"), indexedClass (text "b"), statement plainUse]
    (Renamed (SameToCheck tracked) m m' ∧ checkShadowing tracked m = checkShadowing tracked m') ∧
    checkShadowing tracked (moduleOf [functionType tag]) = .ok () ∧
    (ClassIndexOf tag (indexMember tag) ∧ Tracked tracked tag ∧
      ∃ e, checkShadowing tracked (moduleOf [indexedClass tag]) = .error e) := by
  obtain ⟨hrenamed, hmentioned, hrefused⟩ := signature_names_unseen tracked
  have hsame : SameToCheck tracked (text "a") (text "b") := .inr ⟨by decide, by decide⟩
  have h : Renamed (SameToCheck tracked)
      (moduleOf [functionType tag, indexedClass (text "a"), statement plainUse])
      (moduleOf [functionType (text "x"), indexedClass (text "b"), statement plainUse]) :=
    .node (.cons (renamed_functionType _ _ _) (.cons (renamed_indexedClass hsame) (.refl _)))
  have hindex : ClassIndexOf tag (indexMember tag) := .mk List.mem_cons_self
  have htracked : Tracked tracked tag := by decide
  refine ⟨⟨h, hrenamed h⟩, hmentioned (by decide), hindex, htracked, ?_⟩
  exact hrefused (u := indexMember tag) (by decide) hindex htracked

/-- In a class the name of an index signature's parameter is taken for a declaration. -/
theorem class_index_name_refused :
    Renamed (fun _ _ => True) (moduleOf [indexedClass tag]) (moduleOf [indexedClass (text "a")]) ∧
    checkShadowing tracked (moduleOf [indexedClass tag]) =
      .error ⟨⟨12, 23⟩, .shadowed Target.standard.source tag⟩ ∧
    checkShadowing tracked (moduleOf [indexedClass (text "a")]) = .ok () :=
  ⟨.node (.cons (renamed_indexedClass trivial) .nil), rfl, rfl⟩

end

end InlineTemplates
