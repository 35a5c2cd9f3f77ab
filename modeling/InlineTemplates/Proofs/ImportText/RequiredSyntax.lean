import InlineTemplates.Proofs.Config.Slots
import InlineTemplates.Proofs.Config.Targets
import InlineTemplates.Proofs.ImportScan
import InlineTemplates.Proofs.ImportText.Origin
import InlineTemplates.Proofs.ImportText.Quoting

/-! # The import that a target asks for

An error says which import a target accepts. The text is that import if its names and strings are
written in it as they are in code. -/

namespace InlineTemplates

open Script (Tree ImportSyntax IsWordText Quoted)

/-! ## The import -/

/-- The text is read as one import, which is taken, and all that is left is a binding to the module of
the target. -/
def Target.AcceptsRequired (targets : List Target) (t : Target) : Prop :=
  ∃ program item b rest, Script.Program.ofSource? .plain t.requiredSyntax = .ok program ∧
    program.tree.parts = [item] ∧ (∃ typeOnly phase, item.kind = .item (.import typeOnly phase)) ∧
    trackImports targets program.source program.tree = .ok ([b], rest) ∧ b.source = t.source ∧
    rest.parts = []

def Target.requiredImport (t : Target) : ImportSyntax where
  default? := if t.isDefault then some (text "hbs") else none
  list := if t.isDefault then .none else .named [⟨.word t.tag, none, false⟩] false
  raw := '\'' :: (t.source ++ ['\''])
  value := t.source

theorem spelling_requiredImport (t : Target) :
    t.requiredImport.printed.spelling = t.requiredSyntax := by
  unfold Target.requiredSyntax Target.requiredImport ImportSyntax.printed
    ImportSyntax.spelling ImportSyntax.namesSpelling ImportSyntax.named
  cases t.isDefault with
  | true => simp [Script.ImportList.printed, Script.ImportList.spelling, Script.ImportPhase.word?, text]
  | false =>
    simp [Script.ImportList.printed, Script.ImportList.spelling, Script.NamedImport.spelling,
      Script.Exported.spelling, Script.ImportPhase.word?, text]

theorem legal_requiredImport {t : Target} {d : Script.Dialect}
    (hname : t.isDefault = true ∨ IsWordText t.tag) (hsource : Quoted '\'' t.source t.source) :
    t.requiredImport.Legal d where
  types h := by cases h
  default n hn := by
    unfold Target.requiredImport at hn
    cases hdefault : t.isDefault with
    | true =>
      rw [hdefault] at hn
      obtain rfl := Option.some.inj hn
      exact ⟨by decide, fun h => absurd h (by decide)⟩
    | false =>
      rw [hdefault] at hn
      cases hn
  list := by
    unfold Target.requiredImport
    cases hdefault : t.isDefault with
    | true => trivial
    | false =>
      rw [hdefault] at hname
      refine List.forall_mem_singleton.mpr ⟨hname.resolve_left Bool.false_ne_true, ?_, ?_⟩
      · intro l hl
        cases hl
      · intro h
        cases h
  bare h := rfl
  source := ⟨'\'', t.source, .inl rfl, hsource, rfl⟩

theorem acceptedName?_requiredImport (t : Target) :
    ∃ n, acceptedName? t t.requiredImport.tree = some n := by
  unfold Target.requiredImport
  cases hdefault : t.isDefault with
  | true =>
    refine ⟨text "hbs", acceptedName?_eq_some_iff.mpr (.only ?_)⟩
    exact .default (isDefault_iff.mp hdefault) rfl
  | false =>
    refine ⟨t.tag, acceptedName?_eq_some_iff.mpr (.only ?_)⟩
    exact .implied (isDefault_eq_false_iff.mp hdefault) rfl

/-! ## Tracking -/

theorem Target.find?_of_mem {targets : List Target} (hdistinct : (targets.map source).Nodup)
    {t : Target} (ht : t ∈ targets) : find? targets t.source = some t :=
  (find?_key_eq_some_iff hdistinct).mpr ⟨ht, rfl⟩

theorem trackImports_singleton_iff {targets : List Target} {m item : Tree} {b : Binding}
    (hitem : m.parts = [item]) (source : Text) :
    (∃ rest, trackImports targets source m = .ok ([b], rest) ∧ rest.parts = []) ↔
      bindingOf? targets item = some b := by
  have hbindings : bindingsOf targets [item] = (bindingOf? targets item).toList := by
    unfold bindingsOf
    cases hb : bindingOf? targets item <;> simp [hb]
  simp only [trackImports_eq_ok_iff, hitem, hbindings]
  constructor
  · rintro ⟨rest, ⟨-, hb, -⟩, -⟩
    exact Option.toList_eq_singleton_iff.mp hb.symm
  · intro hb
    obtain ⟨target, htarget, -⟩ := of_bindingOf? hb
    refine ⟨.node m.kind m.span [], ⟨⟨?_, ?_⟩, ?_, ?_⟩, rfl⟩
    · exact List.forall_mem_singleton.mpr fun _ => by rw [hb]; rfl
    · rw [hbindings, hb]
      exact List.pairwise_singleton _ _
    · rw [hb]
      rfl
    · simp [otherItems, htarget]

/-! ## The targets of a configuration -/

namespace Config

variable {config : Config} {targets : List Target}

theorem of_targets (h : config.targets = .ok targets) : targets = [.standard] ∨
    ∃ entries, emptyModule? entries = none ∧ targets = targetsOf entries := by
  unfold Config.targets at h
  split at h
  · cases h
    exact .inl rfl
  · split at h
    · cases h
    · next hempty =>
      cases h
      exact .inr ⟨_, hempty, rfl⟩

theorem nodup_of_targets (h : config.targets = .ok targets) :
    (targets.map Target.source).Nodup := by
  obtain rfl | ⟨entries, -, rfl⟩ := of_targets h
  · exact List.nodup_singleton _
  · rw [sources_targetsOf]
    exact (sortedModules_pairwise entries).imp ne_of_lt

theorem tag_ne_nil (h : config.targets = .ok targets) {t : Target} (ht : t ∈ targets) :
    t.tag ≠ [] := by
  obtain rfl | ⟨entries, hempty, rfl⟩ := of_targets h
  · obtain rfl := List.mem_singleton.mp ht
    decide
  · intro htag
    have hexport : exportOf? entries t.source = some [] := htag ▸ mem_targetsOf.mp ht
    have hmem : t.source ∈ tableOrder (entries.map (·.1)) :=
      Table.mem_tableOrder.mpr (exportOf?_ne_none_iff.mp (hexport ▸ Option.some_ne_none _))
    have hnone := List.find?_eq_none.mp hempty t.source hmem
    exact hnone (beq_iff_eq.mpr hexport)

end Config

/-! ## The text -/

theorem lexes_requiredSyntax {t : Target} {d : Script.Dialect} (hi : t.requiredImport.Legal d) :
    Script.Lexes t.requiredSyntax t.requiredImport.tokens [] := by
  have hprinted : t.requiredImport.printed = t.requiredImport := by
    unfold Target.requiredImport
    cases t.isDefault <;> rfl
  have h := Script.lexes_spelling (y := []) hi
  rwa [List.append_nil, spelling_requiredImport, hprinted] at h

theorem accepts_required {targets : List Target} {t : Target}
    (hdistinct : (targets.map Target.source).Nodup) (ht : t ∈ targets)
    (hname : t.isDefault = true ∨ IsWordText t.tag) (hsource : Quoted '\'' t.source t.source) :
    t.AcceptsRequired targets := by
  have hi : t.requiredImport.Legal .plain := legal_requiredImport hname hsource
  have hhead : t.requiredSyntax.head? = some 'i' := by
    unfold Target.requiredSyntax
    cases t.isDefault <;> rfl
  obtain ⟨program, hread, -, htree⟩ := Script.ofSource?_import hi (lexes_requiredSyntax hi)
    (.inl ⟨Script.Gap.nil.last, rfl⟩) Script.Gap.nil.last
    (Script.withoutMark_of_head? hhead (by decide))
  have hitems : program.tree.parts.map Tree.eraseSpans = [t.requiredImport.tree] := by
    rw [← Script.Tree.parts_eraseSpans, htree]
    rfl
  obtain ⟨item, hitem, hitemTree⟩ := List.map_eq_singleton_iff.mp hitems
  obtain ⟨n, hn⟩ := acceptedName?_requiredImport t
  have htarget : importTarget? targets item = some t := by
    rw [← importTarget?_eraseSpans, hitemTree]
    exact Target.find?_of_mem hdistinct ht
  have hbinding : bindingOf? targets item = some ⟨t.source, n⟩ := by
    rw [bindingOf?_of_some htarget, ← acceptedName?_eraseSpans, hitemTree, hn]
    rfl
  obtain ⟨rest, htrack, hrest⟩ := (trackImports_singleton_iff hitem program.source).mpr hbinding
  refine ⟨program, item, _, rest, hread, hitem, ⟨false, .evaluation, ?_⟩, htrack, rfl, hrest⟩
  rw [← Script.Tree.kind_eraseSpans, hitemTree]
  rfl

/-! ## What is accepted -/

theorem importedName?_of_specifies {t : Target} {s : Span} {name imported : Tree} {n : Text}
    (h : Specifies t (.node (.part (.importNamed false)) s [name, imported]) n) :
    importedName? name imported = some t.tag := by
  cases h with
  | implied _ hlocal => exact hlocal
  | renamed => rfl
  | quoted => rfl

theorem AcceptedForm.of_isImportOf {t : Target} {item src : Tree} {names : List Tree} {n : Text}
    (h : AcceptedForm t item n) (hitem : Script.Parse.IsImportOf item names src) :
    ∃ one, names = [one] ∧ Specifies t one n := by
  obtain ⟨span, attributes, rfl⟩ := hitem
  unfold Tree.list at h
  cases h with
  | only h => exact ⟨_, rfl, h⟩

theorem writtenName?_of_importSource? {item src : Tree} {names : List Tree} {source : Text}
    (hitem : Script.Parse.IsImportOf item names src) (h : importSource? item = some source) :
    writtenName? src = some source := by
  obtain ⟨span, attributes, rfl⟩ := hitem
  unfold importSource? at h
  split at h
  · next heq =>
    cases heq
    exact h
  · cases h

theorem Target.requiredSyntax_named {t : Target} (h : t.isDefault = false) :
    t.requiredSyntax = text "import" ++ (' ' :: '\x7b' :: ' ' :: (t.tag ++ (text " \x7d from " ++
      '\'' :: (t.source ++ ['\''])))) := by
  simp [requiredSyntax, h, text]

theorem Target.requiredSyntax_default {t : Target} (h : t.isDefault = true) :
    t.requiredSyntax = text "import" ++ (' ' :: (text "hbs" ++ (' ' :: (text "from" ++ (' ' ::
      '\'' :: (t.source ++ ['\''])))))) := by
  simp [requiredSyntax, h, text]

section Reading

open Script.Parse
open Script (ParseState HoldsString leads_word leads_mark endsWord_blank)

variable {t : Target} {tree item : Tree} {s : ParseState} {n : Text}

theorem verbatim_of_default (hdefault : t.isDefault = true)
    (hcode : ¬ ['\\', 'u'] <:+: t.source)
    (hrun : runOn moduleTree plainModule (startOf t.requiredSyntax) = (.ok tree, s))
    (herrors : s.lexer.record.errors = []) (hitem : tree.parts = [item])
    (hsource : importSource? item = some t.source) : Script.Read.IsVerbatim '\'' t.source := by
  have hfaces := faces_startOf (C := (· = plainModule)) t.requiredSyntax
  rw [Target.requiredSyntax_default hdefault] at hrun hfaces
  obtain ⟨l, l', hl, hl', names, src, hnames, hquoted⟩ :=
    default_import_origin hfaces (leads_word (by decide) (endsWord_blank _))
      (leads_word (by decide) (endsWord_blank _)).blank
      (leads_word (by decide) (endsWord_blank _)).blank (by decide) (by decide) hrun hitem herrors
  obtain ⟨value, after, hvalue, hholds⟩ := hquoted.holdsString hl.regexFrom hl'
  obtain rfl : value = t.source :=
    Option.some.inj (hvalue.symm.trans (writtenName?_of_importSource? hnames hsource))
  rw [hl.rest] at hholds
  have hwhole : HoldsString (text " from " ++ '\'' :: (t.source ++ ['\''])) t.source after := hholds
  exact hwhole.isVerbatim (by decide) hcode

theorem word_and_verbatim_of_named (hdefault : t.isDefault = false) (htag : t.tag ≠ [])
    (hcode : ¬ ['\\', 'u'] <:+: t.source)
    (hrun : runOn moduleTree plainModule (startOf t.requiredSyntax) = (.ok tree, s))
    (herrors : s.lexer.record.errors = []) (hitem : tree.parts = [item])
    (hsource : importSource? item = some t.source) (hform : AcceptedForm t item n) :
    IsWordText t.tag ∧ Script.Read.IsVerbatim '\'' t.source := by
  have hfaces := faces_startOf (C := (· = plainModule)) t.requiredSyntax
  rw [Target.requiredSyntax_named hdefault] at hrun hfaces
  have hopen (z : Text) : Script.Leads (' ' :: '\x7b' :: z) (.mark .braceOpen) z :=
    (leads_mark rfl z).blank
  obtain ⟨l, l', hl, hl', names, src, l₁, hnames, hon, hon', hquoted, himported⟩ :=
    named_import_origin hfaces (leads_word (by decide) (endsWord_blank _)) (hopen _) hrun hitem
      herrors
  obtain ⟨value, after, hvalue, hholds⟩ :=
    hquoted.holdsString (hon.regexFrom.trans hl.regexFrom) hl'
  obtain rfl : value = t.source :=
    Option.some.inj (hvalue.symm.trans (writtenName?_of_importSource? hnames hsource))
  obtain ⟨one, rfl, hone⟩ := hform.of_isImportOf hnames
  obtain ⟨span, name, imported, rfl, hnamed⟩ := himported one rfl
  obtain ⟨_, _, l₂, hnext, hl₂⟩ := Script.Lexer.next_of_leads (c := plainModule) hl (hopen _)
  rw [importedName?_of_specifies hone, hnext] at hnamed
  have hword : IsWordText t.tag := by
    rcases hnamed.word_or_string plain_plainModule hl₂ htag (hon'.errors_nil hl') with
      hword | ⟨behind, hname, hbehind⟩
    · exact hword
    · -- Behind a string that says the export there would be no room for the other string.
      have hshort := hname.length_lt (by decide)
      have hlong := hholds.length_le
      have hrest := hbehind.length_le
      simp only [List.length_cons, List.length_append, List.length_nil] at hshort
      omega
  refine ⟨hword, ?_⟩
  have hwhole : HoldsString (text " \x7b " ++ t.tag ++ text " \x7d from " ++
      '\'' :: (t.source ++ ['\''])) t.source after := by
    have := hholds.of_suffix (hl.rest ▸ hon.rest)
    simpa [text] using this
  have hfront : Script.Unquoted (text " \x7b " ++ t.tag ++ text " \x7d from ") :=
    (Script.Unquoted.append (by decide) hword.unquoted).append (by decide)
  exact hwhole.isVerbatim hfront hcode

theorem verbatim_of_acceptsRequired {targets : List Target}
    (hdistinct : (targets.map Target.source).Nodup) (ht : t ∈ targets) (htag : t.tag ≠ [])
    (hcode : ¬ ['\\', 'u'] <:+: t.source) (h : t.AcceptsRequired targets) :
    (t.isDefault = true ∨ IsWordText t.tag) ∧ Script.Read.IsVerbatim '\'' t.source := by
  obtain ⟨program, item, b, rest, hread, hitem, -, htrack, hb, hrest⟩ := h
  have hleaves : Leaves targets item b := bindingOf?_eq_some_iff.mp
    ((trackImports_singleton_iff hitem program.source).mp ⟨rest, htrack, hrest⟩)
  obtain ⟨hsource, target, hfind, hform⟩ := hleaves
  rw [hb] at hsource hfind
  obtain rfl : target = t :=
    Option.some.inj (hfind.symm.trans (Target.find?_of_mem hdistinct ht))
  have hhead : target.requiredSyntax.head? = some 'i' := by
    unfold Target.requiredSyntax
    cases target.isDefault <;> rfl
  obtain ⟨s, hrun, herrors⟩ :=
    Script.runOn_of_ofSource? hread (Script.withoutMark_of_head? hhead (by decide))
  cases hdefault : target.isDefault with
  | true => exact ⟨.inl rfl, verbatim_of_default hdefault hcode hrun herrors hitem hsource⟩
  | false =>
    obtain ⟨hword, hverbatim⟩ :=
      word_and_verbatim_of_named hdefault htag hcode hrun herrors hitem hsource hform
    exact ⟨.inr hword, hverbatim⟩

end Reading

/-- The import that an error asks for is accepted just if the export is the default one or a word, and
the module's name may stand between single quotes as it is. (Names with `\u` are left out: half of a
pair of code units is an escape that says itself.) -/
theorem required_import_accepted_iff {config : Config} {targets : List Target}
    (hconfig : config.targets = .ok targets) {t : Target} (ht : t ∈ targets)
    (hcode : ¬ ['\\', 'u'] <:+: t.source) :
    t.AcceptsRequired targets ↔
      (t.isDefault = true ∨ IsWordText t.tag) ∧ Script.Read.IsVerbatim '\'' t.source := by
  have hdistinct := Config.nodup_of_targets hconfig
  constructor
  · exact verbatim_of_acceptsRequired hdistinct ht (Config.tag_ne_nil hconfig ht) hcode
  · rintro ⟨hname, hsource⟩
    exact accepts_required hdistinct ht hname hsource.quoted

/-- A reserved word is asked for in braces, and accepted there. -/
theorem required_import_accepted_iff_reserved :
    Config.targets ⟨some [(text "m", text "if")]⟩ = .ok [⟨text "m", text "if"⟩] ∧
      Target.requiredSyntax ⟨text "m", text "if"⟩ = text "import \x7b if \x7d from 'm'" ∧
      Target.AcceptsRequired [⟨text "m", text "if"⟩] ⟨text "m", text "if"⟩ := by
  have hconfig : Config.targets ⟨some [(text "m", text "if")]⟩ = .ok [⟨text "m", text "if"⟩] := by
    decide +kernel
  refine ⟨hconfig, rfl, ?_⟩
  exact (required_import_accepted_iff hconfig List.mem_cons_self (by decide)).mpr
    ⟨.inr (by decide), by decide⟩

/-- A quote in a module's name ends the string, an escape in it is read as what it stands for, and a
blank divides the name of an export: each import is asked for, and refused. -/
theorem required_import_refused :
    (Config.targets ⟨some [(text "it's", text "hbs")]⟩ = .ok [⟨text "it's", text "hbs"⟩] ∧
      Target.requiredSyntax ⟨text "it's", text "hbs"⟩ = text "import \x7b hbs \x7d from 'it's'" ∧
      ¬ Target.AcceptsRequired [⟨text "it's", text "hbs"⟩] ⟨text "it's", text "hbs"⟩) ∧
    (Config.targets ⟨some [(text "a\\b", text "hbs")]⟩ = .ok [⟨text "a\\b", text "hbs"⟩] ∧
      Target.requiredSyntax ⟨text "a\\b", text "hbs"⟩ = text "import \x7b hbs \x7d from 'a\\b'" ∧
      ¬ Target.AcceptsRequired [⟨text "a\\b", text "hbs"⟩] ⟨text "a\\b", text "hbs"⟩) ∧
    Config.targets ⟨some [(text "m", text "a b")]⟩ = .ok [⟨text "m", text "a b"⟩] ∧
      Target.requiredSyntax ⟨text "m", text "a b"⟩ = text "import \x7b a b \x7d from 'm'" ∧
      ¬ Target.AcceptsRequired [⟨text "m", text "a b"⟩] ⟨text "m", text "a b"⟩ := by
  have hrefused {t : Target} (htag : t.tag ≠ []) (hcode : ¬ ['\\', 'u'] <:+: t.source)
      (h : ¬ ((t.isDefault = true ∨ IsWordText t.tag) ∧ Script.Read.IsVerbatim '\'' t.source)) :
      ¬ t.AcceptsRequired [t] := by
    have hdistinct : ([t].map Target.source).Nodup := List.nodup_singleton _
    exact fun haccepts =>
      h (verbatim_of_acceptsRequired hdistinct List.mem_cons_self htag hcode haccepts)
  refine ⟨⟨?_, rfl, ?_⟩, ⟨?_, rfl, ?_⟩, ?_, rfl, ?_⟩
  · decide +kernel
  · exact hrefused (by decide) (by decide) (by decide)
  · decide +kernel
  · exact hrefused (by decide) (by decide) (by decide)
  · decide +kernel
  · exact hrefused (by decide) (by decide) (by decide)

end InlineTemplates
