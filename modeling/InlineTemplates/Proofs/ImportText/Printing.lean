import InlineTemplates.Proofs.ImportText.Reading
import InlineTemplates.Proofs.Printing.Edges
import InlineTemplates.Proofs.Printing.SameText

/-! # Imports in print

An import that stands nowhere is printed on one line, with a blank between its tokens and without
the braces that hold no name. What is printed spells the import, but for braces that nothing stands
for. -/

namespace InlineTemplates.Script

/-! ## Documents of one text -/

namespace Doc

variable {d e : Doc} {t u : Text}

/-- The document is the text. -/
def Says (d : Doc) (t : Text) : Prop := SameText d [.text t]

theorem says_text (t : Text) : Says [.text t] t := SameText.refl _

theorem says_nil : Says [] [] := fun _ _ => rfl

namespace Says

theorem append (h : Says d t) (h' : Says e u) : Says (d ++ e) (t ++ u) :=
  (SameText.append h h').trans (.texts t u)

theorem before (h : Says d t) (position : Nat) : Says (Doc.before position ++ d) t :=
  fun m rest => h m rest

theorem behind (h : Says d t) (position : Nat) : Says (d ++ Doc.behind position) t :=
  (SameText.comments d .trailing position false).trans h

theorem intercalate {mark : Doc} {between : Text} (hmark : Says mark between) {α : Type}
    {code : α → Doc} {spelling : α → Text} (h : ∀ a, Says (code a) (spelling a)) (as : List α) :
    Says (mark.intercalate (as.map code)) (between.intercalate (as.map spelling)) := by
  induction as with
  | nil => exact says_nil
  | cons a as ih =>
    cases as with
    | nil =>
      rw [List.map_singleton, List.map_singleton, List.intercalate_singleton,
        List.intercalate_singleton]
      exact h a
    | cons b bs =>
      rw [List.map_cons, List.map_cons] at ih
      rw [List.map_cons, List.map_cons, List.map_cons, List.map_cons, List.intercalate_cons_cons,
        List.intercalate_cons_cons]
      exact ((h a).append hmark).append ih

end Says
end Doc

/-! ## Names -/

/-- The style in which an import that stands nowhere is quoted. -/
def quoteStyle : Style := {}

def Tree.quotes (t : Tree) (spelling : Text) : Prop := Doc.Says (quoteStyle.print t).code spelling

theorem quotes_nameTree (n : Text) : (nameTree n).quotes n := (Doc.says_text n).before _

namespace Exported

def spelling : Exported → Text
  | word n => n
  | string raw _ => raw

theorem quotes_tree (e : Exported) : e.tree.quotes e.spelling := by
  cases e with
  | word n => exact quotes_nameTree n
  | string raw value => exact (Doc.says_text raw).before _

end Exported

namespace NamedImport

def spelling (i : NamedImport) : Text :=
  (if i.typeOnly then text "type " else []) ++ (i.imported.spelling ++
    i.alias?.elim [] (text " as " ++ ·))

theorem quotes_tree (i : NamedImport) : i.tree.quotes i.spelling := by
  obtain ⟨imported, alias?, typeOnly⟩ := i
  have htype : Doc.Says (if typeOnly then lit "type " else [])
      (if typeOnly then text "type " else []) := by
    cases typeOnly with
    | true => exact Doc.says_text _
    | false => exact Doc.says_nil
  cases alias? with
  | none =>
    have h := htype.append imported.quotes_tree
    rwa [← List.append_nil imported.spelling] at h
  | some l =>
    exact htype.append (imported.quotes_tree.append ((Doc.says_text _).append (quotes_nameTree l)))

end NamedImport

def ImportPhase.doc : ImportPhase → Doc
  | evaluation => []
  | source => lit " source"
  | defer => lit " defer"

theorem kind_print (t : Tree) : (quoteStyle.print t).kind = t.kind := by
  cases t
  rfl

/-! ## Lists -/

namespace ImportList

/-- What is imported, as it is printed: braces without names are left out. -/
def printed : ImportList → ImportList
  | named [] _ => none
  | named (i :: more) _ => named (i :: more) false
  | list => list

def spelling : ImportList → Text
  | none => []
  | all n => text "* as " ++ n
  | named names _ =>
    text "\x7b " ++ (text ", ").intercalate (names.map NamedImport.spelling) ++ text " \x7d"

theorem trees_printed (list : ImportList) : list.printed.trees = list.trees := by
  cases list with
  | named names comma => cases names <;> rfl
  | _ => rfl

end ImportList

namespace ImportSyntax

variable (i : ImportSyntax)

/-- The import as it is printed. -/
def printed : ImportSyntax := { i with list := i.list.printed }

/-- The names of the import, up to the module that they are from. -/
def namesSpelling : Text :=
  i.default?.getD [] ++ (if i.default?.isSome && i.list != .none then text ", " else []) ++
    i.list.spelling ++ if i.named then text " from " else []

def spelling : Text :=
  text "import" ++ ((if i.typeOnly then text " type" else []) ++
    (i.phase.word?.elim [] (text " " ++ ·) ++ (text " " ++ (i.namesSpelling ++ i.raw))))

theorem tree_printed : i.printed.tree = i.tree := by
  rw [tree, tree, printed, ImportList.trees_printed]

end ImportSyntax

theorem importNames_append (s : Style) (span : Span) {others named : List Printed}
    (hothers : ∀ p ∈ others, ∀ b, p.kind ≠ .part (.importNamed b))
    (hnamed : ∀ p ∈ named, ∃ b, p.kind = .part (.importNamed b)) :
    s.importNames span (others ++ named) =
      let first := (lit "," ++ s.gap).intercalate (others.map Printed.code)
      if named.isEmpty then if first.isEmpty then [] else first ++ lit " from" ++ s.gap
      else (if first.isEmpty then [] else first ++ lit "," ++ s.gap) ++ lit "\x7b" ++
        s.list .names span (named.map (·.entry (·.code))) ++ lit "\x7d" ++ s.gap ++ lit "from" ++
        s.gap := by
  unfold Style.importNames
  extract_lets isNamed names firsts first
  have hfalse : ∀ p ∈ others, isNamed p = false := by
    intro p hp
    have hkind := hothers p hp
    dsimp only [isNamed]
    split
    · next b heq => exact absurd heq (hkind b)
    · rfl
  have htrue : ∀ p ∈ named, isNamed p = true := by
    intro p hp
    obtain ⟨b, hkind⟩ := hnamed p hp
    simp only [isNamed, hkind]
  have hfilter : (others ++ named).filter isNamed = named := by
    rw [List.filter_append, List.filter_eq_nil_iff.mpr (by simpa using hfalse),
      List.filter_eq_self.mpr htrue, List.nil_append]
  have hrest : ((others ++ named).filter fun p => !isNamed p) = others := by
    rw [List.filter_append, List.filter_eq_self.mpr (by simpa using hfalse),
      List.filter_eq_nil_iff.mpr (by simpa using htrue), List.append_nil]
  have hnames : names = named := hfilter
  have hfirst : firsts = first := congrArg (fun ps => List.intercalate _ (List.map _ ps)) hrest
  rw [hnames, hfirst]

theorem says_list (i : NamedImport) (more : List NamedImport) :
    Doc.Says (quoteStyle.list .names .nowhere
        (((i :: more).map fun j => quoteStyle.print j.tree).map (·.entry (·.code))))
      (text " " ++ (text ", ").intercalate ((i :: more).map NamedImport.spelling) ++ text " ") := by
  have hentry (j : NamedImport) :
      Doc.Says (Style.entry .names ((quoteStyle.print j.tree).entry (·.code))) j.spelling :=
    Doc.Says.behind j.quotes_tree _
  have hseparator : Doc.Says (quoteStyle.separator .names) (text ", ") :=
    (Doc.says_text (text ",")).append (Doc.says_text (text " "))
  have hentries : (i :: more).map (fun j => Style.entry .names ((quoteStyle.print j.tree).entry
      (·.code))) = (((i :: more).map fun j => quoteStyle.print j.tree).map (·.entry (·.code))).map
        (Style.entry .names) := by
    rw [List.map_map, List.map_map]
    rfl
  have hnames := Doc.Says.intercalate hseparator hentry (i :: more)
  rw [hentries] at hnames
  have hbody := ((Doc.says_text (text " ")).append (hnames.append Doc.says_nil)).append
    (Doc.says_text (text " "))
  rw [List.append_nil ((text ", ").intercalate _)] at hbody
  exact hbody

theorem says_importNames_append {others : List Tree} {w : Text}
    (hkinds : ∀ t ∈ others, ∀ b, t.kind ≠ .part (.importNamed b))
    (hw : Doc.Says ((lit "," ++ quoteStyle.gap).intercalate
      ((others.map quoteStyle.print).map Printed.code)) w)
    (hempty : ((lit "," ++ quoteStyle.gap).intercalate
      ((others.map quoteStyle.print).map Printed.code)).isEmpty = others.isEmpty)
    (names : List NamedImport) :
    Doc.Says (quoteStyle.importNames .nowhere
        ((others ++ names.map NamedImport.tree).map quoteStyle.print))
      (match names with
        | [] => if others.isEmpty then [] else w ++ text " from "
        | i :: more => (if others.isEmpty then [] else w ++ text ", ") ++
            (ImportList.named (i :: more) false).spelling ++ text " from ") := by
  have hblank : Doc.Says quoteStyle.gap (text " ") := Doc.says_text _
  have hfirst : ∀ p ∈ others.map quoteStyle.print, ∀ b, p.kind ≠ .part (.importNamed b) :=
    List.forall_mem_map.mpr fun t ht => kind_print t ▸ hkinds t ht
  have hnamed : ∀ p ∈ names.map (quoteStyle.print ·.tree), ∃ b, p.kind = .part (.importNamed b) :=
    List.forall_mem_map.mpr fun i _ => ⟨i.typeOnly, kind_print i.tree⟩
  rw [List.map_append, List.map_map]
  refine (congrArg (Doc.Says · _) (importNames_append quoteStyle .nowhere hfirst hnamed)).mpr ?_
  · dsimp only
    rw [hempty]
    cases names with
    | nil =>
      cases others.isEmpty with
      | true => exact Doc.says_nil
      | false =>
        have hfrom : Doc.Says (lit " from" ++ quoteStyle.gap) (text " from ") :=
          (Doc.says_text (text " from")).append hblank
        have h := hw.append hfrom
        rwa [← List.append_assoc] at h
    | cons i more =>
      have hopening : Doc.Says (if others.isEmpty then [] else
          (lit "," ++ quoteStyle.gap).intercalate ((others.map quoteStyle.print).map Printed.code) ++
            lit "," ++ quoteStyle.gap)
          (if others.isEmpty then [] else w ++ text "," ++ text " ") := by
        cases others.isEmpty with
        | true => exact Doc.says_nil
        | false => exact (hw.append (Doc.says_text (text ","))).append hblank
      have h := (((((hopening.append (Doc.says_text (text "\x7b"))).append (says_list i more)).append
        (Doc.says_text (text "\x7d"))).append hblank).append (Doc.says_text (text "from"))).append
          hblank
      have hbrace : text "\x7b " = text "\x7b" ++ text " " := by decide
      have hclose : text " \x7d" = text " " ++ text "\x7d" := by decide
      have hfrom : text " from " = text " " ++ text "from" ++ text " " := by decide
      have hcomma : text ", " = text "," ++ text " " := by decide
      dsimp only
      rw [ImportList.spelling, hbrace, hclose, hfrom, hcomma]
      simp only [List.append_assoc] at h ⊢
      exact h

def ImportSyntax.specifiers (i : ImportSyntax) : List Tree :=
  i.default?.toList.map (fun n => Tree.ofPart .importDefault .nowhere [nameTree n]) ++ i.list.trees

theorem says_importNames (i : ImportSyntax) :
    Doc.Says (quoteStyle.importNames .nowhere (i.specifiers.map quoteStyle.print))
      i.printed.namesSpelling := by
  obtain ⟨typeOnly, phase, default?, list, raw, value⟩ := i
  have hdefault (n : Text) :
      (Tree.ofPart .importDefault .nowhere [nameTree n]).quotes n := (quotes_nameTree n).before _
  have hall (n : Text) :
      (Tree.ofPart .importNamespace .nowhere [nameTree n]).quotes (text "* as " ++ n) :=
    (((Doc.says_text (text "*")).append (Doc.says_text (text " "))).append
      (Doc.says_text (text "as "))).append (quotes_nameTree n)
  have hcomma : Doc.Says (lit "," ++ quoteStyle.gap) (text ", ") :=
    (Doc.says_text (text ",")).append (Doc.says_text (text " "))
  have hdefaultKind (n : Text) (b : Bool) :
      (Tree.ofPart .importDefault .nowhere [nameTree n]).kind ≠ .part (.importNamed b) :=
    fun h => by cases h
  have hallKind (n : Text) (b : Bool) :
      (Tree.ofPart .importNamespace .nowhere [nameTree n]).kind ≠ .part (.importNamed b) :=
    fun h => by cases h
  have hone {t : Tree} {w : Text} (h : t.quotes w) : Doc.Says ((lit "," ++ quoteStyle.gap).intercalate
      (([t].map quoteStyle.print).map Printed.code)) w := by
    rw [List.map_singleton, List.map_singleton, List.intercalate_singleton]
    exact h
  have htwo {t u : Tree} {w v : Text} (h : t.quotes w) (h' : u.quotes v) :
      Doc.Says ((lit "," ++ quoteStyle.gap).intercalate
        (([t, u].map quoteStyle.print).map Printed.code)) (w ++ text ", " ++ v) := by
    rw [List.map_cons, List.map_singleton, List.map_cons, List.map_singleton,
      List.intercalate_cons_cons, List.intercalate_singleton]
    exact (h.append hcomma).append h'
  unfold ImportSyntax.specifiers ImportSyntax.namesSpelling ImportSyntax.printed ImportSyntax.named
  cases list with
  | none =>
    cases default? with
    | none => exact Doc.says_nil
    | some n =>
      simpa [ImportList.printed, ImportList.spelling, ImportList.trees] using
        says_importNames_append (by simp [hdefaultKind]) (hone (hdefault n)) rfl []
  | all m =>
    cases default? with
    | none =>
      simpa [ImportList.printed, ImportList.spelling, ImportList.trees] using
        says_importNames_append (by simp [hallKind]) (hone (hall m)) rfl []
    | some n =>
      simpa [ImportList.printed, ImportList.spelling, ImportList.trees] using
        says_importNames_append (by simp [hdefaultKind, hallKind]) (htwo (hdefault n) (hall m)) rfl []
  | named names comma =>
    cases default? with
    | none =>
      have hnothing : Doc.Says ((lit "," ++ quoteStyle.gap).intercalate
          ((([] : List Tree).map quoteStyle.print).map Printed.code)) [] := Doc.says_nil
      have h := says_importNames_append (by simp) hnothing rfl names
      cases names <;> simpa [ImportList.printed, ImportList.spelling, ImportList.trees] using h
    | some n =>
      have h := says_importNames_append (by simp [hdefaultKind]) (hone (hdefault n)) rfl names
      cases names <;> simpa [ImportList.printed, ImportList.spelling, ImportList.trees] using h

/-! ## Whole imports -/

theorem quotes_tree (i : ImportSyntax) : i.tree.quotes (i.printed.spelling ++ text ";") := by
  have htype : Doc.Says (if i.typeOnly then lit " type" else [])
      (if i.typeOnly then text " type" else []) := by
    cases i.typeOnly with
    | true => exact Doc.says_text _
    | false => exact Doc.says_nil
  have hphase : Doc.Says i.phase.doc
      (i.phase.word?.elim [] (text " " ++ ·)) := by
    cases i.phase with
    | evaluation => exact Doc.says_nil
    | source => exact Doc.says_text (text " source")
    | defer => exact Doc.says_text (text " defer")
  have hsource : Doc.Says (quoteStyle.fromModule
      (quoteStyle.print (.ofPart (.string i.value (some i.raw)) .nowhere []))
      (quoteStyle.print .absent)) i.raw := by
    have h := ((Doc.says_text i.raw).before 0).append Doc.says_nil
    rwa [List.append_nil i.raw] at h
  have hblank : Doc.Says
      (quoteStyle.gapIf (Style.startsWithDefault (quoteStyle.printAll i.specifiers))) (text " ") := by
    cases Style.startsWithDefault (quoteStyle.printAll i.specifiers) <;> exact Doc.says_text _
  have hnames := says_importNames i
  rw [← Style.printAll_eq_map] at hnames
  have h := ((((((Doc.says_text (text "import")).append htype).append hphase).append
    hblank).append hnames).append hsource).append (Doc.says_text (text ";"))
  have htext : i.printed.spelling ++ text ";" = text "import" ++
      (if i.typeOnly then text " type" else []) ++ i.phase.word?.elim [] (text " " ++ ·) ++
        text " " ++ i.printed.namesSpelling ++ i.raw ++ text ";" := by
    simp only [ImportSyntax.spelling, List.append_assoc]
    rfl
  rw [htext]
  exact h.before 0

theorem plain_import (i : ImportSyntax) :
    Tree.plain false [] (.node (.module none) .nowhere [i.tree]) =
      i.printed.spelling ++ text ";\n" := by
  have hitem : Doc.SameText ((quoteStyle.print i.tree).whole ++ [.newline])
      ([.text (i.printed.spelling ++ text ";")] ++ [.newline]) :=
    .append ((Doc.SameText.comments _ _ _ _).trans (quotes_tree i)) (.refl _)
  have hitems : [quoteStyle.print i.tree].flatMap quoteStyle.moduleItem =
      (quoteStyle.print i.tree).whole ++ [.newline] := by
    rw [List.flatMap_singleton]
    rfl
  have hmodule : Doc.SameText (Tree.doc quoteStyle (.node (.module none) .nowhere [i.tree]))
      ([quoteStyle.print i.tree].flatMap quoteStyle.moduleItem) := .comments _ _ _ _
  rw [hitems] at hmodule
  change Doc.render [] (Tree.doc quoteStyle (.node (.module none) .nowhere [i.tree])) = _
  rw [Doc.render_nil, Doc.layout_eq_of_sameText (hmodule.trans hitem)]
  have hnotEmpty : (i.printed.spelling ++ text ";").isEmpty = false := rfl
  simp only [List.singleton_append, Doc.layout, Margin.put, hnotEmpty]
  simp [text]

/-! ## What is printed spells the import -/

section Spelling

variable {d : Dialect} {x y : Text} {t : Token} {n : Text}

theorem Exported.leads_spelling {i : NamedImport} {typeOnly : Bool} (hi : i.Legal d typeOnly)
    (hy : EndsWord y) : Leads (i.imported.spelling ++ y) i.imported.token y := by
  obtain ⟨imported, alias?, typeMark⟩ := i
  cases imported with
  | word n => exact leads_word hi.1 hy
  | string raw value => exact leads_string hi.1.1 y

theorem isWordText_as : IsWordText (text "as") := Parse.declarable_as.1

theorem NamedImport.lexes_alias {i : NamedImport} {typeOnly : Bool} (hi : i.Legal d typeOnly)
    (hy : EndsWord y) : Lexes (i.imported.spelling ++ (i.alias?.elim [] (text " as " ++ ·) ++ y))
      (i.imported.token :: aliasTokens i.alias?) y := by
  cases hl : i.alias? with
  | none => exact ⟨y, Exported.leads_spelling hi hy, rfl⟩
  | some l =>
    have has : text " as " = ' ' :: (text "as" ++ [' ']) := by decide
    have hlast : Leads (' ' :: (l ++ y)) (wordToken l) y := (leads_word (hi.2.1 l hl).1 hy).blank
    refine ⟨_, Exported.leads_spelling hi ?_, _, ?_, _, hlast, rfl⟩
    · rw [has]
      exact endsWord_blank _
    · rw [has]
      simpa using (leads_word isWordText_as (endsWord_blank _)).blank

theorem NamedImport.lexes_spelling {i : NamedImport} {typeOnly : Bool} (hi : i.Legal d typeOnly)
    (hy : EndsWord y) : Lexes (i.spelling ++ y) i.tokens y := by
  have halias := NamedImport.lexes_alias hi hy
  unfold NamedImport.spelling NamedImport.tokens
  cases i.typeOnly with
  | false => simpa using halias
  | true =>
    have htype : text "type " = text "type" ++ [' '] := by decide
    have hword : IsWordText (text "type") := Parse.declarable_type.1
    rw [htype]
    simpa using ⟨_, leads_word hword (endsWord_blank _), halias.blank (List.cons_ne_nil _ _)⟩

theorem lexes_names {typeOnly : Bool} {i : NamedImport} {more : List NamedImport}
    (hlegal : ∀ j ∈ i :: more, j.Legal d typeOnly) (hy : EndsWord y) :
    Lexes ((text ", ").intercalate ((i :: more).map NamedImport.spelling) ++ y)
      (ImportList.namesTokens false (i :: more)) y := by
  induction more generalizing i with
  | nil =>
    rw [List.map_singleton, List.intercalate_singleton]
    simpa [ImportList.namesTokens] using NamedImport.lexes_spelling (hlegal i List.mem_cons_self) hy
  | cons j more ih =>
    have hrest := ih fun k hk => hlegal k (List.mem_cons_of_mem _ hk)
    rw [List.map_cons, List.map_cons, List.intercalate_cons_cons, ← List.map_cons]
    have hcomma : text ", " = [',', ' '] := by decide
    have hmark : Mark.ofChar? ',' = some .comma := rfl
    refine lexes_append.mpr ⟨_, lexes_append.mpr ⟨_, ?_, _, leads_mark hmark _, rfl⟩, hrest.blank ?_⟩
    · rw [hcomma]
      simpa using NamedImport.lexes_spelling (hlegal i List.mem_cons_self) (endsWord_comma _)
    · simp [ImportList.namesTokens, NamedImport.tokens]

theorem lexes_list {typeOnly : Bool} {list : ImportList} (hlegal : list.Legal d typeOnly)
    (hy : EndsWord y) : Lexes (list.printed.spelling ++ y) list.printed.tokens y := by
  cases list with
  | none => rfl
  | all n =>
    have hstar : text "* as " = '*' :: ' ' :: (text "as" ++ [' ']) := by decide
    change Lexes (text "* as " ++ n ++ y) (ImportList.all n).tokens y
    have hname := (leads_word hlegal.1 hy).blank
    have has := (leads_word isWordText_as (endsWord_blank (n ++ y))).blank
    rw [hstar]
    refine ⟨_, ⟨[], _, .nil, .star (y := ' ' :: (text "as" ++ (' ' :: (n ++ y)))) ?_, ?_⟩,
      _, has, _, hname, rfl⟩
    · rfl
    · simp
  | named names comma =>
    cases names with
    | nil => rfl
    | cons i more =>
      have hopen : text "\x7b " = ['\x7b', ' '] := by decide
      have hclose : text " \x7d" = [' ', '\x7d'] := by decide
      have hopens : Mark.ofChar? '\x7b' = some .braceOpen := rfl
      have hcloses : Mark.ofChar? '\x7d' = some .braceClose := rfl
      rw [ImportList.printed, ImportList.spelling, hopen, hclose]
      have hnames := lexes_names hlegal (endsWord_blank ('\x7d' :: y))
      refine ⟨_, leads_mark hopens _, lexes_append.mpr ⟨_, ?_, _, (leads_mark hcloses _).blank, rfl⟩⟩
      simpa using hnames.blank (by simp [ImportList.namesTokens, NamedImport.tokens])

theorem Lexes.word {ts : List Token} (hn : IsWordText n) (h : Lexes (' ' :: x) ts y) :
    Lexes (' ' :: (n ++ ' ' :: x)) (wordToken n :: ts) y :=
  ⟨_, (leads_word hn (endsWord_blank _)).blank, h⟩

theorem lexes_namesSpelling {i : ImportSyntax} (hi : i.Legal d) :
    Lexes (i.printed.namesSpelling ++ (i.raw ++ y)) (i.printed.defaultTokens ++
      (i.printed.list.tokens ++ ((if i.printed.named then [wordToken (text "from")] else []) ++
        [.string i.value i.raw]))) y := by
  obtain ⟨typeOnly, phase, default?, list, raw, value⟩ := i
  have hfrom : text " from " = ' ' :: (text "from" ++ [' ']) := by decide
  have hsource : Leads (raw ++ y) (.string value raw) y := leads_string hi.source y
  have htail : Lexes (text " from " ++ (raw ++ y))
      [wordToken (text "from"), .string value raw] y := by
    rw [hfrom]
    have hstring : Lexes (' ' :: (raw ++ y)) [.string value raw] y := ⟨y, hsource.blank, rfl⟩
    simpa using hstring.word Parse.declarable_from.1
  have hlist : Lexes (list.printed.spelling ++ (text " from " ++ (raw ++ y)))
      (list.printed.tokens ++ [wordToken (text "from"), .string value raw]) y := by
    refine lexes_append.mpr ⟨_, lexes_list hi.list ?_, htail⟩
    rw [hfrom]
    exact endsWord_blank _
  simp only [ImportSyntax.printed, ImportSyntax.namesSpelling, ImportSyntax.defaultTokens,
    ImportSyntax.named, ImportList.comma]
  have hcomma : text ", " = [',', ' '] := by decide
  have hmark : Mark.ofChar? ',' = some .comma := rfl
  by_cases hnone : list.printed = .none
  · cases default? with
    | none => simpa [hnone, ImportList.spelling, ImportList.tokens] using ⟨y, hsource, rfl⟩
    | some n =>
      have hends : EndsWord (text " from " ++ (raw ++ y)) := hfrom ▸ endsWord_blank _
      simpa [hnone, ImportList.spelling, ImportList.tokens] using
        ⟨_, leads_word (hi.default n rfl).1.1 hends, htail⟩
  · cases default? with
    | none => simpa [hnone] using hlist
    | some n =>
      have hword := leads_word (hi.default n rfl).1.1
        (endsWord_comma (' ' :: (list.printed.spelling ++ (text " from " ++ (raw ++ y)))))
      simpa [hnone, hcomma] using ⟨_, hword, _, leads_mark hmark _, hlist.blank (by simp)⟩

theorem lexes_spelling {i : ImportSyntax} (hi : i.Legal d) :
    Lexes (i.printed.spelling ++ y) i.printed.tokens y := by
  have hnames := (lexes_namesSpelling (y := y) hi).blank (by simp)
  have hphase : Lexes (i.phase.word?.elim [] (text " " ++ ·) ++
      (text " " ++ (i.printed.namesSpelling ++ (i.raw ++ y))))
      (i.phase.word?.toList.map wordToken ++ (i.printed.defaultTokens ++ (i.printed.list.tokens ++
        ((if i.printed.named then [wordToken (text "from")] else []) ++
          [.string i.value i.raw])))) y := by
    cases hp : i.phase.word? with
    | none => exact hnames
    | some p => exact hnames.word (Parse.ImportPhase.declarable_of_word? hp).1.1
  obtain ⟨x, hx⟩ : ∃ x, i.phase.word?.elim [] (text " " ++ ·) ++
      (text " " ++ (i.printed.namesSpelling ++ (i.raw ++ y))) = ' ' :: x := by
    cases i.phase.word? <;> exact ⟨_, rfl⟩
  rw [hx] at hphase
  have himport : IsWordText (text "import") := by decide
  have hspelling : i.printed.spelling ++ y =
      text "import" ++ ((if i.typeOnly then text " type" else []) ++ ' ' :: x) := by
    rw [← hx, ImportSyntax.spelling]
    simp only [List.append_assoc]
    rfl
  rw [hspelling]
  have htype : text " type" = ' ' :: text "type" := by decide
  cases htypeOnly : i.typeOnly with
  | false =>
    refine ⟨_, leads_word himport (endsWord_blank _), ?_⟩
    simpa [ImportSyntax.restTokens, ImportSyntax.headTokens, ImportSyntax.printed, htypeOnly] using
      hphase
  | true =>
    refine ⟨_, leads_word himport (endsWord_blank _), ?_⟩
    simpa [ImportSyntax.restTokens, ImportSyntax.headTokens, ImportSyntax.printed, htypeOnly,
      htype] using hphase.word Parse.declarable_type.1

end Spelling

end InlineTemplates.Script
