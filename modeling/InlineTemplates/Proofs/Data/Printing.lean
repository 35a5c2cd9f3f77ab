import InlineTemplates.Proofs.Data.Reading
import InlineTemplates.Proofs.Printing.Spelled

/-! # Data in print

What is printed for the tree of data spells the tokens of that data, at any margin. -/

namespace InlineTemplates.Script

open Parse (memberTokens membersOf)
open Doc (Spells IsGap)

variable {p : Char → Bool} {s : Style} {docs : List Doc} {parts : List (List Token)}

theorem isGap_gap (s : Style) : IsGap s.gap := by
  unfold Style.gap
  split
  · exact Doc.isGap_nil
  · exact Doc.isGap_text (.of_all (by decide))

theorem isGap_newline (s : Style) : IsGap s.newline := by
  unfold Style.newline
  split
  · exact Doc.isGap_nil
  · exact Doc.isGap_newline

/-! ## Lists -/

theorem spells_commas {gap : Doc} (hgap : IsGap gap) (hparts : ∀ ts ∈ parts, ts ≠ [])
    (h : List.Forall₂ (Spells endsWord) docs parts) :
    Spells endsWord ((lit "," ++ gap).intercalate docs) (commaTokens parts) := by
  have hcomma {d : Doc} {ts : List Token} (hts : ts ≠ []) (h : Spells endsWord d ts) :
      Spells endsWord ((lit "," ++ gap) ++ d) (.mark .comma :: ts) := by
    rw [List.append_assoc]
    exact Doc.spells_mark_append rfl (hgap.spells h hts) hts
  induction h with
  | nil => exact Doc.spells_nil
  | @cons d ts docs parts hd hrest ih =>
    have ih := ih fun us hus => hparts us (List.mem_cons_of_mem _ hus)
    cases hrest with
    | nil => simpa [commaTokens, laterTokens] using hd
    | @cons d' ts' docs parts hd' hrest =>
      rw [List.intercalate_cons_cons, List.append_assoc]
      have hne : commaTokens (ts' :: parts) ≠ [] := by
        have hts' := hparts ts' (List.mem_cons_of_mem _ List.mem_cons_self)
        simp [commaTokens, hts']
      refine hd.append (hcomma hne ih) (List.cons_ne_nil _ _) Doc.passesGaps_endsWord ?_
      exact ((Doc.opens_text Doc.passesGaps_endsWord (by decide)).append _).append _

/-- Between gaps the document spells the tokens. -/
def SpellsInside (d : Doc) (ts : List Token) : Prop :=
  ∃ g body g', d = g ++ body ++ g' ∧ IsGap g ∧ IsGap g' ∧ Spells endsWord body ts

theorem spells_brackets {d : Doc} {ts : List Token} {o c : Char} {m m' : Mark}
    (ho : Mark.ofChar? o = some m) (hc : Mark.ofChar? c = some m') (hends : endsWord c = true)
    (h : SpellsInside d ts) :
    Spells p ([.text [o]] ++ d ++ [.text [c]]) (.mark m :: (ts ++ [.mark m'])) := by
  obtain ⟨g, body, g', rfl, hg, hg', hbody⟩ := h
  exact Doc.spells_bracketed ho hc hends hg hg' hbody

theorem isGap_ite {b : Bool} {d e : Doc} (hd : IsGap d) (he : IsGap e) :
    IsGap (if b then d else e) := by
  cases b
  · exact he
  · exact hd

theorem isGap_indented (s : Style) (d : Doc) :
    ∃ g g', s.indented d = g ++ d ++ g' ∧ IsGap g ∧ IsGap g' := by
  unfold Style.indented
  split
  · exact ⟨[], [], by simp, Doc.isGap_nil, Doc.isGap_nil⟩
  · exact ⟨[.indent], [.dedent], rfl, Doc.isGap_indent, Doc.isGap_dedent⟩

theorem spellsInside_list {l : ListStyle} {span : Span} {entries : List Entry}
    (hl : l.delimiter = some ",") (hfinal : l.finalComma = .never)
    (hparts : ∀ ts ∈ parts, ts ≠ [])
    (h : List.Forall₂ (fun e ts => Spells endsWord e.code ts) entries parts) :
    SpellsInside (s.list l span entries) (commaTokens parts) := by
  cases entries with
  | nil =>
    cases h
    have hgap : IsGap (s.list l span []) := by
      exact isGap_ite Doc.isGap_nil
        (isGap_ite (isGap_newline s) (isGap_ite (isGap_gap s) Doc.isGap_nil))
    exact ⟨_, [], [], by simp, hgap, Doc.isGap_nil, Doc.spells_nil⟩
  | cons e entries =>
    have hseparator : s.separator l =
        lit "," ++ if l.multiLine then s.newline else if l.spaced then s.gap else [] := by
      simp [Style.separator, Style.delimiter, hl]
    have hentries : List.Forall₂ (Spells endsWord) ((e :: entries).map (Style.entry l)) parts := by
      rw [List.forall₂_map_left_iff]
      refine h.imp fun e ts he => ?_
      unfold Style.entry
      split
      · simpa using he
      · exact he.comments _ _ _
    have hbody : Spells endsWord ((s.separator l).intercalate ((e :: entries).map (Style.entry l)))
        (commaTokens parts) := by
      rw [hseparator]
      exact spells_commas (isGap_ite (isGap_newline s) (isGap_ite (isGap_gap s) Doc.isGap_nil)) hparts
        hentries
    have hnone : s.finalComma l span = [] := by
      simp [Style.finalComma, hfinal]
    have hopening : IsGap (if l.multiLine then s.newline else if l.padded then s.gap else []) :=
      isGap_ite (isGap_newline s) (isGap_ite (isGap_gap s) Doc.isGap_nil)
    have hclosing : IsGap (if l.multiLine then (if l.noFinalNewline then [] else s.newline)
        else if l.padded then s.gap else []) :=
      isGap_ite (isGap_ite Doc.isGap_nil (isGap_newline s)) (isGap_ite (isGap_gap s) Doc.isGap_nil)
    have hindented (body : Doc) : ∃ g g',
        (if l.indented then s.indented body else body) = g ++ body ++ g' ∧ IsGap g ∧ IsGap g' := by
      split
      · exact isGap_indented s body
      · exact ⟨[], [], by simp, Doc.isGap_nil, Doc.isGap_nil⟩
    obtain ⟨g, g', hbodied, hg, hg'⟩ := hindented
      ((s.separator l).intercalate ((e :: entries).map (Style.entry l)))
    refine ⟨_, _, _, ?_, hopening.append hg, hg'.append hclosing, hbody⟩
    simp only [Style.list, hnone, List.append_nil]
    rw [hbodied]
    simp only [List.append_assoc]

/-! ## Members -/

/-- A character that may stand behind the dot of a member. -/
def followsDot (ch : Char) : Bool := ch != '.' && !Text.isDigit ch

theorem followsDot_of_isNameStart {ch : Char} (h : Text.isNameStart ch = true) :
    followsDot ch = true := by
  have hdot : ch ≠ '.' := ne_of_isNameStart h (by decide)
  simp [followsDot, hdot, isDigit_of_isNameStart h]

theorem passesGaps_followsDot : Doc.PassesGaps followsDot := by
  rintro ch (h | rfl)
  · have hpart := Doc.isNamePart_of_isSpace h
    have hdigit : Text.isDigit ch = false := by
      simp only [Text.isNamePart, Bool.or_eq_false_iff] at hpart
      exact hpart.1.1.1.2
    have hdot : ch ≠ '.' := by
      rintro rfl
      revert h
      decide
    simp [followsDot, hdot, hdigit]
  · decide

theorem spells_dot : Spells followsDot [.text ['.']] [.mark .dot] :=
  Doc.spells_text fun _ hy => .dot hy

theorem opens_word {n : Text} (hn : IsWordText n) : Doc.Opens followsDot [.text n] := by
  cases n with
  | nil => exact absurd hn.1 Bool.false_ne_true
  | cons ch n => exact Doc.opens_text passesGaps_followsDot (followsDot_of_isNameStart hn.1)

/-- Names and members of them are printed as they are before a dot and before a call. -/
def isPath (t : Tree) : Bool := match t.kind with
  | .expr (.name _) | .expr .member => true
  | _ => false

theorem isPath_membersOf {obj : Tree} (h : isPath obj = true) (members : List Text) :
    isPath (membersOf obj members) = true := by
  induction members generalizing obj with
  | nil => exact h
  | cons m members ih =>
    have hmember : isPath (.expr .member .nowhere [obj, nameTree m]) = true := rfl
    exact ih hmember

theorem callee_of_isPath {t : Tree} (h : isPath t = true) (s : Style) :
    s.callee (s.print t) = (s.print t).whole := by
  obtain ⟨kind, span, parts⟩ := t
  cases kind with
  | expr k => cases k <;> first | rfl | cases h
  | _ => cases h

theorem spells_member {obj : Tree} {ts : List Token} {m : Text} (span nameSpan : Span)
    (hobj : isPath obj = true) (hm : IsWordText m) (h : Spells endsWord (s.print obj).code ts) :
    Spells endsWord (s.print (.expr .member span [obj, .ofPart (.name m) nameSpan []])).code
      (ts ++ [.mark .dot, wordToken m]) := by
  have hcode : (s.print (.expr .member span [obj, .ofPart (.name m) nameSpan []])).code =
      Doc.before span.lo ++ ((s.print obj).whole ++ (Doc.before (nameSpan.lo - 1) ++ lit "." ++
        (Doc.before nameSpan.lo ++ [.text m]))) := by
    have hmember : (s.print (.expr .member span [obj, .ofPart (.name m) nameSpan []])).code =
        Doc.before span.lo ++ s.member (s.print obj) (s.print (.ofPart (.name m) nameSpan [])) := rfl
    rw [hmember, ← callee_of_isPath hobj]
    obtain ⟨kind, span, parts⟩ := obj
    cases kind with
    | expr k => cases k <;> first | rfl | cases hobj
    | _ => cases hobj
  have hword : Spells endsWord (Doc.before nameSpan.lo ++ [.text m]) [wordToken m] :=
    Doc.spells_before _ (Doc.spells_word hm) (List.cons_ne_nil _ _)
  have hopens : Doc.Opens followsDot (Doc.before nameSpan.lo ++ [.text m]) :=
    (Doc.isGap_comments _ _ _).opens passesGaps_followsDot (opens_word hm)
  have hdot : Spells endsWord (lit "." ++ (Doc.before nameSpan.lo ++ [.text m]))
      ([.mark .dot] ++ [wordToken m]) :=
    spells_dot.append hword (List.cons_ne_nil _ _) passesGaps_followsDot hopens
  have hdotted : Spells endsWord (Doc.before (nameSpan.lo - 1) ++ lit "." ++
      (Doc.before nameSpan.lo ++ [.text m])) [.mark .dot, wordToken m] := by
    rw [List.append_assoc]
    exact Doc.spells_before _ hdot (List.cons_ne_nil _ _)
  have hends : Doc.Opens endsWord (Doc.before (nameSpan.lo - 1) ++ lit "." ++
      (Doc.before nameSpan.lo ++ [.text m])) := by
    rw [List.append_assoc]
    exact (Doc.isGap_comments _ _ _).opens Doc.passesGaps_endsWord
      ((Doc.opens_text Doc.passesGaps_endsWord (by decide)).append _)
  have hwhole : Spells endsWord (s.print obj).whole ts := h.comments _ _ _
  rw [hcode]
  refine Doc.spells_before _ ?_ (by simp)
  exact hwhole.append hdotted (List.cons_ne_nil _ _) Doc.passesGaps_endsWord hends

theorem spells_members {obj : Tree} {ts : List Token} {members : List Text}
    (hobj : isPath obj = true) (hmembers : ∀ m ∈ members, IsWordText m)
    (h : ∀ t, obj.Is t → Spells endsWord (s.print t).code ts) :
    ∀ t, (membersOf obj members).Is t →
      Spells endsWord (s.print t).code (ts ++ memberTokens members) := by
  induction members generalizing obj ts with
  | nil => simpa [memberTokens, membersOf] using h
  | cons m members ih =>
    have hmember : ∀ t, (Tree.expr .member .nowhere [obj, nameTree m]).Is t →
        Spells endsWord (s.print t).code (ts ++ [.mark .dot, wordToken m]) := by
      intro t ht
      obtain ⟨span, parts, rfl, hparts⟩ := ht.node_inv
      simp only [List.map_eq_cons_iff, List.map_eq_nil_iff] at hparts
      obtain ⟨o, _, rfl, ho, name, _, rfl, hname, rfl⟩ := hparts
      obtain ⟨nameSpan, inner, rfl, hinner⟩ := Tree.Is.node_inv hname
      obtain rfl := List.map_eq_nil_iff.mp hinner
      have hpath : isPath o = true := by
        rw [← hobj, ← ho, isPath, isPath, Tree.kind_eraseSpans]
      exact spells_member span nameSpan hpath (hmembers m List.mem_cons_self) (h o ho)
    have hpath : isPath (.expr .member .nowhere [obj, nameTree m]) = true := rfl
    simpa [memberTokens, membersOf] using
      ih hpath (fun m' hm' => hmembers m' (List.mem_cons_of_mem _ hm')) hmember

/-! ## Data -/

theorem spells_arguments {span : Span} {args : List Tree} (hparts : ∀ ts ∈ parts, ts ≠ [])
    (h : List.Forall₂ (fun t ts => Spells endsWord (s.print t).code ts) args parts) :
    Spells p (s.arguments span (s.printAll args))
      (.mark .parenOpen :: (commaTokens parts ++ [.mark .parenClose])) := by
  refine spells_brackets rfl rfl (by decide) (spellsInside_list rfl rfl hparts ?_)
  rw [Style.printAll_eq_map, List.map_map, List.forall₂_map_left_iff]
  exact h.imp fun t ts ht => ht.comments _ _ _

theorem array_of_isExpr {span : Span} {elements : List Tree} (h : ∀ t ∈ elements, t.isExpr = true) :
    s.array span (s.printAll elements) = lit "[" ++
      s.list .elements span ((s.printAll elements).map (·.entry Printed.whole)) ++ lit "]" := by
  have hpresent {t : Tree} (ht : t.isExpr = true) : (s.print t).isAbsent = false := by
    obtain ⟨kind, span, parts⟩ := t
    cases kind <;> first | rfl | cases ht
  have hlast : ((s.printAll elements).getLast?.map Printed.isAbsent).getD false = false := by
    rw [Style.printAll_eq_map, List.getLast?_map, Option.map_map]
    cases hlast : elements.getLast? with
    | none => rfl
    | some t => exact hpresent (h t (List.mem_of_getLast? hlast))
  unfold Style.array
  rw [hlast]
  refine congrArg (fun entries => lit "[" ++ s.list .elements span entries ++ lit "]") ?_
  rw [Style.printAll_eq_map, List.map_map, List.map_map]
  refine List.map_congr_left fun t ht => congrArg (Entry.mk _) ?_
  have hexpr := h t ht
  beta_reduce
  rw [hpresent hexpr]
  obtain ⟨kind, span, parts⟩ := t
  cases kind <;> first | rfl | cases hexpr

theorem spells_array {span : Span} {elements : List Tree} (hparts : ∀ ts ∈ parts, ts ≠ [])
    (hexprs : ∀ t ∈ elements, t.isExpr = true)
    (h : List.Forall₂ (fun t ts => Spells endsWord (s.print t).code ts) elements parts) :
    Spells p (s.array span (s.printAll elements))
      (.mark .bracketOpen :: (commaTokens parts ++ [.mark .bracketClose])) := by
  rw [array_of_isExpr hexprs]
  refine spells_brackets rfl rfl (by decide) (spellsInside_list rfl rfl hparts ?_)
  rw [Style.printAll_eq_map, List.map_map, List.forall₂_map_left_iff]
  exact h.imp fun t ts ht => ht.comments _ _ _

theorem spells_object {span : Span} {props : List Tree} (hparts : ∀ ts ∈ parts, ts ≠ [])
    (h : List.Forall₂ (fun t ts => Spells endsWord (s.print t).code ts) props parts) :
    Spells p (s.object span (s.printAll props))
      (.mark .braceOpen :: (commaTokens parts ++ [.mark .braceClose])) := by
  refine spells_brackets rfl rfl (by decide) ?_
  split
  · next hempty =>
    have hnone : props = [] := by
      rw [Bool.and_eq_true, List.isEmpty_iff, Style.printAll_eq_map, List.map_eq_nil_iff] at hempty
      exact hempty.1
    subst hnone
    cases h
    exact ⟨[], [], [], rfl, Doc.isGap_nil, Doc.isGap_nil, Doc.spells_nil⟩
  · refine spellsInside_list rfl rfl hparts ?_
    rw [Style.printAll_eq_map, List.map_map, List.forall₂_map_left_iff]
    exact h

namespace Datum

theorem tokens_ne_nil (d : Datum) : d.tokens ≠ [] := by
  cases d <;> simp [tokens]

theorem tokensOfAll_ne_nil (ds : List Datum) : ∀ ts ∈ tokensOfAll ds, ts ≠ [] := by
  induction ds with
  | nil => exact nofun
  | cons d ds ih => exact List.forall_mem_cons.mpr ⟨d.tokens_ne_nil, ih⟩

theorem tokensOfEntries_ne_nil (entries : List (Text × Text × Datum)) :
    ∀ ts ∈ tokensOfEntries entries, ts ≠ [] := by
  induction entries with
  | nil => exact nofun
  | cons entry entries ih => exact List.forall_mem_cons.mpr ⟨List.cons_ne_nil _ _, ih⟩

end Datum

theorem spells_call {callee : Tree} {args : List Tree} {ts : List Token} (span listSpan absent : Span)
    (hcallee : isPath callee = true) (hparts : ∀ ts ∈ parts, ts ≠ [])
    (h : Spells endsWord (s.print callee).code ts)
    (hargs : List.Forall₂ (fun t ts => Spells endsWord (s.print t).code ts) args parts) :
    Spells endsWord
      (s.print (.expr .call span [callee, .node .list listSpan args, .node .absent absent []])).code
      (ts ++ (.mark .parenOpen :: (commaTokens parts ++ [.mark .parenClose]))) := by
  have hcode : (s.print (.expr .call span
        [callee, .node .list listSpan args, .node .absent absent []])).code =
      Doc.before span.lo ++ ((s.print callee).whole ++ s.arguments span (s.printAll args)) := by
    have hcall : (s.print (.expr .call span
          [callee, .node .list listSpan args, .node .absent absent []])).code =
        Doc.before span.lo ++
          (s.callee (s.print callee) ++ [] ++ s.arguments span (s.printAll args)) := rfl
    rw [hcall, callee_of_isPath hcallee, List.append_nil]
  have hwhole : Spells endsWord (s.print callee).whole ts := h.comments _ _ _
  rw [hcode]
  refine Doc.spells_before _ ?_ (by simp)
  refine hwhole.append (spells_arguments hparts hargs) (List.cons_ne_nil _ _)
    Doc.passesGaps_endsWord ?_
  exact ((Doc.opens_text Doc.passesGaps_endsWord (by decide)).append _).append _

theorem string_of_raw (hs : s.dense = false) (value raw : Text) :
    Spelling.string s.dense value (some raw) = raw := by
  simp [Spelling.string, hs]

theorem spells_entry {raw value : Text} {t : Tree} {ts : List Token} (span keySpan : Span)
    (hs : s.dense = false) (hkey : IsString raw value) (hts : ts ≠ [])
    (h : Spells endsWord (s.print t).code ts) :
    Spells endsWord
      (s.print (.prop .keyValue span [.ofPart (.string value (some raw)) keySpan [], t])).code
      (Datum.entryTokens raw value ts) := by
  have hcode : (s.print (.prop .keyValue span
        [.ofPart (.string value (some raw)) keySpan [], t])).code = Doc.before span.lo ++
      (Doc.before keySpan.lo ++ [.text (Spelling.string s.dense value (some raw))] ++ lit ":" ++
        s.gap ++ (s.print t).whole) := rfl
  have hwhole : Spells endsWord (s.print t).whole ts := h.comments _ _ _
  have hcolon : Spells endsWord (lit ":" ++ (s.gap ++ (s.print t).whole)) (.mark .colon :: ts) :=
    Doc.spells_mark_append rfl ((isGap_gap s).spells hwhole hts) hts
  have hkeyed : Spells (fun _ => true) (Doc.before keySpan.lo ++ [.text raw]) [.string value raw] :=
    Doc.spells_before _ (Doc.spells_string hkey) (List.cons_ne_nil _ _)
  rw [hcode, string_of_raw hs, List.append_assoc, List.append_assoc]
  refine Doc.spells_before _ ?_ (List.cons_ne_nil _ _)
  exact hkeyed.append hcolon (List.cons_ne_nil _ _) (fun _ _ => rfl) (Doc.opens_true _)

theorem spells_name {n : Text} (hn : IsWordText n) {t : Tree}
    (ht : (Tree.expr (.name n) .nowhere []).Is t) : Spells endsWord (s.print t).code [wordToken n] := by
  obtain ⟨span, parts, rfl, hparts⟩ := ht.node_inv
  obtain rfl := List.map_eq_nil_iff.mp hparts
  exact Doc.spells_before _ (Doc.spells_word hn) (List.cons_ne_nil _ _)

theorem spells_namedCall {n : Text} {members : List Text} {trees : List Tree} {t : Tree}
    (hn : Declarable n) (hmembers : ∀ m ∈ members, IsWordText m) (hparts : ∀ ts ∈ parts, ts ≠ [])
    (h : ∀ args, args.map Tree.eraseSpans = trees →
      List.Forall₂ (fun t ts => Spells endsWord (s.print t).code ts) args parts)
    (ht : (Tree.expr .call .nowhere
      [membersOf (.expr (.name n) .nowhere []) members, .list trees, .absent]).Is t) :
    Spells endsWord (s.print t).code
      (wordToken n :: (memberTokens members ++
        (.mark .parenOpen :: (commaTokens parts ++ [.mark .parenClose])))) := by
  obtain ⟨span, _, rfl, htrees⟩ := ht.node_inv
  simp only [List.map_eq_cons_iff, List.map_eq_nil_iff] at htrees
  obtain ⟨callee, _, rfl, hcallee, list, _, rfl, hlist, absent, _, rfl, habsent, rfl⟩ := htrees
  obtain ⟨listSpan, args, rfl, hargs⟩ := Tree.Is.node_inv hlist
  obtain ⟨absentSpan, inner, rfl, hinner⟩ := Tree.Is.node_inv habsent
  obtain rfl := List.map_eq_nil_iff.mp hinner
  have hpath : isPath callee = true := by
    rw [isPath, ← Tree.kind_eraseSpans, hcallee]
    exact isPath_membersOf rfl members
  exact spells_call span listSpan absentSpan hpath hparts
    (spells_members rfl hmembers (fun _ => spells_name hn.1) callee hcallee) (h args hargs)

mutual
/-- Wherever its parts stand, the tree of data is printed as the tokens of that data. -/
theorem spells_datum (hs : s.dense = false) : ∀ (d : Datum) (t : Tree), d.Legal → d.tree.Is t →
    Spells endsWord (s.print t).code d.tokens
  | .null, t, _, ht => by
    obtain ⟨span, parts, rfl, hparts⟩ := ht.node_inv
    obtain rfl := List.map_eq_nil_iff.mp hparts
    exact Doc.spells_before _ (Doc.spells_word (n := text "null") (by decide)) (List.cons_ne_nil _ _)
  | .bool b, t, _, ht => by
    obtain ⟨span, parts, rfl, hparts⟩ := ht.node_inv
    obtain rfl := List.map_eq_nil_iff.mp hparts
    cases b
    · exact Doc.spells_before _ (Doc.spells_word (n := text "false") (by decide))
        (List.cons_ne_nil _ _)
    · exact Doc.spells_before _ (Doc.spells_word (n := text "true") (by decide))
        (List.cons_ne_nil _ _)
  | .string raw value, t, h, ht => by
    obtain ⟨span, parts, rfl, hparts⟩ := ht.node_inv
    obtain rfl := List.map_eq_nil_iff.mp hparts
    have hcode : (s.print (.expr (.string value (some raw)) span [])).code =
        Doc.before span.lo ++ [.text (Spelling.string s.dense value (some raw))] := rfl
    rw [string_of_raw hs] at hcode
    exact hcode ▸ Doc.spells_before _ (Doc.spells_string h) (List.cons_ne_nil _ _)
  | .dotted n members, t, h, ht =>
    spells_members (by rfl) h.2.2 (fun _ => spells_name h.1.1) t ht
  | .call n members args, t, h, ht =>
    spells_namedCall h.1.1 h.1.2.2 (Datum.tokensOfAll_ne_nil args)
      (fun ts hts => spells_data hs args ts h.2 hts) ht
  | .array elements, t, h, ht => by
    obtain ⟨span, parts, rfl, hparts⟩ := Tree.Is.node_inv ht
    refine Doc.spells_before _ (spells_array (Datum.tokensOfAll_ne_nil elements) ?_
      (spells_data hs elements parts h hparts)) (List.cons_ne_nil _ _)
    intro t ht
    have hmem : t.eraseSpans ∈ Datum.trees elements := hparts ▸ List.mem_map_of_mem ht
    rw [Tree.isExpr, ← t.kind_eraseSpans]
    exact Datum.isExpr_trees elements _ hmem
  | .object entries, t, h, ht => by
    obtain ⟨span, parts, rfl, hparts⟩ := Tree.Is.node_inv ht
    exact Doc.spells_before _ (spells_object (Datum.tokensOfEntries_ne_nil entries)
      (spells_entries hs entries parts h hparts)) (List.cons_ne_nil _ _)

theorem spells_data (hs : s.dense = false) : ∀ (ds : List Datum) (ts : List Tree),
    Datum.AllLegal ds → ts.map Tree.eraseSpans = Datum.trees ds →
    List.Forall₂ (fun t ts => Spells endsWord (s.print t).code ts) ts (Datum.tokensOfAll ds)
  | [], ts, _, hts => by
    obtain rfl := List.map_eq_nil_iff.mp hts
    exact .nil
  | d :: ds, ts, h, hts => by
    obtain ⟨t, ts, rfl, ht, hts⟩ := List.map_eq_cons_iff.mp hts
    exact .cons (spells_datum hs d t h.1 ht) (spells_data hs ds ts h.2 hts)

theorem spells_entries (hs : s.dense = false) :
    ∀ (entries : List (Text × Text × Datum)) (ts : List Tree), Datum.EntriesLegal entries →
    ts.map Tree.eraseSpans = Datum.treesOfEntries entries →
    List.Forall₂ (fun t ts => Spells endsWord (s.print t).code ts) ts
      (Datum.tokensOfEntries entries)
  | [], ts, _, hts => by
    obtain rfl := List.map_eq_nil_iff.mp hts
    exact .nil
  | (raw, value, d) :: more, ts, h, hts => by
    obtain ⟨t, ts, rfl, ht, hmore⟩ := List.map_eq_cons_iff.mp hts
    obtain ⟨span, parts, rfl, hparts⟩ := Tree.Is.node_inv ht
    simp only [List.map_eq_cons_iff, List.map_eq_nil_iff] at hparts
    obtain ⟨key, _, rfl, hkey, inner, _, rfl, hinner, rfl⟩ := hparts
    obtain ⟨keySpan, keyParts, rfl, hkeyParts⟩ := Tree.Is.node_inv hkey
    obtain rfl := List.map_eq_nil_iff.mp hkeyParts
    have hvalue := spells_datum hs d inner h.2.1 hinner
    exact .cons (spells_entry span keySpan hs h.1 d.tokens_ne_nil hvalue)
      (spells_entries hs more ts h.2.2 hmore)
end

end InlineTemplates.Script
