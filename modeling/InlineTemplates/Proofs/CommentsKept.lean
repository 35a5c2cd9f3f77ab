import InlineTemplates.Proofs.ErrorPlace
import InlineTemplates.Proofs.InPlace
import InlineTemplates.Proofs.NoImport
import InlineTemplates.Proofs.Printing.Call

/-! # Comments after a run

Comments do not stand in the tree but in a table, each at an edge of a token. A run leaves the table
as it is, and what it prints has the places of the tokens that are left. So the comments at the
tokens of a removed import are lost, also those before and behind it. The others outside of the sites
stay, in their order. -/

namespace InlineTemplates

open Script (Tree Program Doc Style Comments PlacedComment CommentSide)

variable {σ : Type}

/-! ## What a program shows -/

namespace Script.Program

def style (p : Program) : Style := { source := p.source, comments := p.comments }

/-- The comments that the print of a program shows, in order. -/
def shown (p : Program) : Comments := Doc.printed p.comments (p.tree.doc p.style)

theorem carries_render (p : Program) :
    ∃ d, p.render = d.layout {} ∧ (p.tree.doc p.style).Carries p.shown d :=
  ⟨_, rfl, Doc.carries_withComments _ _⟩

theorem count_shown_of_mem {p : Program} {c : PlacedComment} (h : c ∈ p.shown) :
    p.shown.count c = p.comments.count c := by
  have hcount := Doc.count_printed (p.tree.doc p.style) c p.comments
  by_cases hplace : c.place ∈ (p.tree.doc p.style).places
  · rw [if_pos hplace] at hcount
    exact hcount
  · rw [if_neg hplace, List.count_eq_zero] at hcount
    exact absurd h hcount

end Script.Program

/-! ## Calls in the place of sites -/

theorem samePrint_templateCall {style : Style} {t e : Tree} (ht : t.kind.isApplied = true)
    (he : ∀ u ∈ e.nodes, u.span = .nowhere) :
    Doc.SamePrint (fun c => c.position ≠ 0 ∧
        (c.place ∈ (style.print t).code.places → c.place = (.leading, t.span.lo)))
      (style.print t).code (style.print (templateCall e t.span)).code := by
  obtain ⟨inner, hcode⟩ := code_of_isApplied style ht
  have honly := only_callDoc style he
  rw [hcode, code_templateCall]
  refine Doc.SamePrint.behind (.trans (Doc.samePrint_nil ?_) (Doc.samePrint_nil ?_).symm)
  · rintro c ⟨⟨-, hsite⟩, hplace⟩ hinner
    refine hplace (hsite ?_)
    rw [Doc.places_append]
    exact List.mem_append_right _ hinner
  · rintro c ⟨⟨hposition, -⟩, -⟩ hinner
    exact hposition (honly _ hinner)

/-! ## Answers without spans -/

theorem Script.Tree.span_of_mem_nodes_eraseSpans (t : Tree) :
    ∀ u ∈ t.eraseSpans.nodes, u.span = .nowhere := by
  induction t using Tree.induct with
  | node kind span parts ih =>
    intro u hu
    rw [Tree.eraseSpans, Tree.eraseSpansAll_eq_map] at hu
    rcases Tree.mem_nodes_node.mp hu with rfl | ⟨part, hpart, hu⟩
    · rfl
    · obtain ⟨p, hp, rfl⟩ := List.mem_map.mp hpart
      exact ih p hp u hu

/-- A precompiler that builds expressions builds them without spans. -/
def Precompiler.WithoutSpans (p : Precompiler σ) : Prop :=
  ∀ template s t s', (p template).run s = (.expression t, s') → t.eraseSpans = t

theorem eraseSpans_of_fragment? {code : Text} {e : Tree} (h : Script.fragment? code = .ok e) :
    e.eraseSpans = e := by
  obtain ⟨span, inner, after, -, -, rfl⟩ := Script.fragment?_eq_ok_iff.mp h
  exact Tree.eraseSpans_eraseSpans _

theorem eraseSpans_of_precompile {p : Precompiler σ} (hp : p.WithoutSpans) {template : Text}
    {span : Span} {e : Tree} {s s' : σ}
    (h : (precompile p template span).runFrom s = (.ok e, s')) : e.eraseSpans = e := by
  rw [precompile] at h
  obtain ⟨answer, s₁, hanswer, hgiven⟩ := Work.of_runFrom_bind_ok h
  have hgiven : answer.expression? span = .ok e := congrArg Prod.fst hgiven
  unfold Answer.expression? at hgiven
  split at hgiven
  · next code =>
    split at hgiven
    · next hfragment =>
      cases hgiven
      exact eraseSpans_of_fragment? hfragment
    · cases hgiven
  · next t =>
    cases hgiven
    have hrun : (Except.ok ((p template).run s).1, ((p template).run s).2) =
        ((Except.ok (.expression e) : Except TransformError Answer), s₁) := hanswer
    obtain ⟨hfirst, hstate⟩ := Prod.mk.inj hrun
    cases hstate
    exact hp template s e _ (Prod.ext (Except.ok.inj hfirst) rfl)
  · cases hgiven

theorem calls_of_expansions {p : Precompiler σ} (hp : p.WithoutSpans) {s s' : σ}
    {sites : List Site} {calls : List Tree} (h : Expansions p s sites calls s') :
    ∀ call ∈ calls, ∃ e span, call = templateCall e span ∧ ∀ u ∈ e.nodes, u.span = .nowhere := by
  induction h with
  | nil => exact fun _ hcall => absurd hcall List.not_mem_nil
  | @cons _ _ _ site _ e _ _ _ given _ ih =>
    refine List.forall_mem_cons.mpr ⟨⟨e, site.span, rfl, ?_⟩, ih⟩
    rw [← eraseSpans_of_precompile hp given]
    exact e.span_of_mem_nodes_eraseSpans

/-! ## Modules without their imports -/

section
variable {style : Style} {targets : List Target} {hashbang : Option Text} {span : Span}
  {items : List Tree} {item : Tree}

theorem moduleItem_of_importsFrom (h : importsFrom targets item = true) :
    style.moduleItem (style.print item) =
      (style.print item).code ++ Doc.after item.span.hi ++ style.newline := by
  rw [importsFrom_eq_isSome, importTarget?] at h
  obtain ⟨kind, span, parts⟩ := item
  cases kind with
  | item k => rfl
  | _ => cases h

theorem places_newline (s : Style) : s.newline.places = [] := by
  unfold Style.newline
  split <;> rfl

/-- No removed import of a module has the place for itself: it is not inside one, and behind one only
where the module ends with it. -/
structure OutsideImports (style : Style) (targets : List Target) (m : Tree)
    (place : CommentSide × Nat) : Prop where
  inside : ∀ item ∈ m.parts, importsFrom targets item = true →
    place ∉ (style.print item).code.places
  behind : ∀ item ∈ m.parts.dropLast, importsFrom targets item = true →
    place ≠ (.trailing, item.span.hi)
  last : ∀ item ∈ m.parts.getLast?, importsFrom targets item = true →
    place = (.trailing, item.span.hi) → item.span.hi = m.span.hi

theorem samePrint_filter {P : PlacedComment → Prop}
    (h : ∀ item ∈ items, importsFrom targets item = true → ∀ c, P c →
      c.place ∉ (style.moduleItem (style.print item)).places) :
    Doc.SamePrint P (items.flatMap fun item => style.moduleItem (style.print item))
      ((items.filter fun item => !importsFrom targets item).flatMap fun item =>
        style.moduleItem (style.print item)) := by
  induction items with
  | nil => exact .refl _
  | cons item items ih =>
    obtain ⟨hfirst, hothers⟩ := List.forall_mem_cons.mp h
    cases himports : importsFrom targets item with
    | true =>
      rw [List.filter_cons_of_neg (by simp [himports]), List.flatMap_cons]
      exact (Doc.samePrint_nil (hfirst himports)).append (ih hothers)
    | false =>
      rw [List.filter_cons_of_pos (by simp [himports]), List.flatMap_cons, List.flatMap_cons]
      exact (Doc.SamePrint.refl _).append (ih hothers)

theorem samePrint_last {P : PlacedComment → Prop} {finish : Nat}
    (himports : importsFrom targets item = true)
    (hinside : ∀ c : PlacedComment, P c → c.place ∉ (style.print item).code.places)
    (hlast : ∀ c : PlacedComment, P c → c.place = (.trailing, item.span.hi) → item.span.hi = finish) :
    Doc.SamePrint P (style.moduleItem (style.print item) ++ Doc.after finish)
      (Doc.after finish) := by
  have hnewline : ∀ c : PlacedComment, P c → c.place ∉ style.newline.places := by
    intro c _
    rw [places_newline]
    exact List.not_mem_nil
  rw [moduleItem_of_importsFrom himports, List.append_assoc, List.append_assoc]
  refine .trans ((Doc.samePrint_nil hinside).append (.refl _)) ?_
  rw [List.nil_append]
  by_cases heq : item.span.hi = finish
  · rw [heq]
    refine Doc.SamePrint.behind (Doc.samePrint_nil ?_)
    rintro c ⟨hc, hplace⟩ hmem
    rw [List.append_eq, List.nil_append, Doc.places_append, List.mem_append] at hmem
    rcases hmem with hmem | hmem
    · exact hnewline c hc hmem
    · exact hplace (List.mem_singleton.mp hmem)
  · have hbehind : ∀ c : PlacedComment, P c → c.place ∉ (Doc.after item.span.hi).places :=
      fun c hc hmem => heq (hlast c hc (List.mem_singleton.mp hmem))
    exact (Doc.samePrint_nil hbehind).append
      ((Doc.samePrint_nil hnewline).append (.refl _))

theorem samePrint_items :
    Doc.SamePrint
      (fun c => OutsideImports style targets (.node (.module hashbang) span items) c.place)
      ((items.flatMap fun item => style.moduleItem (style.print item)) ++ Doc.after span.hi)
      (((items.filter fun item => !importsFrom targets item).flatMap fun item =>
        style.moduleItem (style.print item)) ++ Doc.after span.hi) := by
  obtain rfl | ⟨front, last, rfl⟩ := items.eq_nil_or_concat'
  · exact .refl _
  have hfront : Doc.SamePrint (fun c =>
        OutsideImports style targets (.node (.module hashbang) span (front ++ [last])) c.place)
      (front.flatMap fun item => style.moduleItem (style.print item))
      ((front.filter fun item => !importsFrom targets item).flatMap fun item =>
        style.moduleItem (style.print item)) := by
    refine samePrint_filter fun item hitem himports c hc hmem => ?_
    rw [moduleItem_of_importsFrom himports, Doc.places_append, Doc.places_append,
      List.mem_append, List.mem_append] at hmem
    rcases hmem with (hmem | hmem) | hmem
    · exact hc.inside item (List.mem_append_left _ hitem) himports hmem
    · refine hc.behind item ?_ himports (List.mem_singleton.mp hmem)
      simpa using hitem
    · rw [places_newline] at hmem
      exact absurd hmem List.not_mem_nil
  rw [List.flatMap_append, List.filter_append, List.flatMap_append, List.append_assoc,
    List.append_assoc]
  refine hfront.append ?_
  cases himports : importsFrom targets last with
  | true =>
    rw [List.filter_cons_of_neg (by simp [himports]), List.flatMap_singleton]
    refine samePrint_last himports (fun c hc => hc.inside last (by simp) himports) ?_
    exact fun c hc => hc.last last (by simp) himports
  | false =>
    rw [List.filter_cons_of_pos (by simp [himports])]
    exact .refl _

theorem samePrint_rest :
    let m : Tree := .node (.module hashbang) span items
    Doc.SamePrint (fun c => c.place = (.leading, span.lo) ∨ OutsideImports style targets m c.place)
      (m.doc style)
      (Tree.doc style (.node (.module hashbang) span
        (items.filter fun item => !importsFrom targets item))) := by
  intro m
  obtain ⟨first, hmodule⟩ : ∃ first, ∀ printed, style.module span hashbang printed =
      first ++ printed.flatMap style.moduleItem ++ Doc.after span.hi := ⟨_, fun _ => rfl⟩
  have hdoc (items : List Tree) : Tree.doc style (.node (.module hashbang) span items) =
      Doc.before span.lo ++ (first ++ ((items.flatMap fun item =>
        style.moduleItem (style.print item)) ++ Doc.after span.hi)) := by
    have hcode : Tree.doc style (.node (.module hashbang) span items) =
        Doc.before span.lo ++ style.module span hashbang (style.printAll items) := rfl
    rw [hcode, hmodule, Style.printAll_eq_map, List.flatMap_map, List.append_assoc]
  have houtside : ∀ c : PlacedComment, (c.place = (.leading, span.lo) ∨
      OutsideImports style targets m c.place) ∧ c.place ≠ (.leading, span.lo) →
      OutsideImports style targets m c.place := fun c hc => hc.1.resolve_left hc.2
  rw [hdoc, hdoc]
  exact Doc.SamePrint.behind ((Doc.SamePrint.refl first).append (samePrint_items.mono houtside))

end

/-! ## Files -/

/-- Of the places that a site has, the comment is at the one before it or at none. -/
def OutsideSites (style : Style) (bindings : List Binding) (rest : Tree) (c : PlacedComment) : Prop :=
  ∀ site ∈ outermost bindings rest, c.place ∈ (style.print site).code.places →
    c.place = (.leading, site.span.lo)

theorem samePrint_fill {style : Style} {bindings : List Binding} {rest : Tree} {calls : List Tree}
    (hdense : style.dense = false)
    (hcalls : ∀ call ∈ calls, ∃ e span, call = templateCall e span ∧
      ∀ u ∈ e.nodes, u.span = .nowhere)
    (hreplaces : List.Forall₂ Replaces (outermost bindings rest) calls) :
    Doc.SamePrint (fun c => c.position ≠ 0 ∧ OutsideSites style bindings rest c)
      (rest.doc style) (((frameOf bindings rest).fill calls).doc style) := by
  obtain ⟨hlen, hreplaces⟩ := List.forall₂_iff_zip.mp hreplaces
  let pairs (site call : Tree) : Prop := (site, call) ∈ (outermost bindings rest).zip calls
  have hpairs : List.Forall₂ pairs (outermost bindings rest) calls :=
    List.forall₂_iff_zip.mpr ⟨hlen, id⟩
  -- A call may be parted from the word before it where its site was not, or the other way round.
  let swaps (d d' : Doc) : Prop :=
    codeSwaps style pairs d d' ∨ d ≠ [] ∧ d' ≠ [] ∧ d.places = d'.places
  have hne : ∀ d d', swaps d d' → d ≠ [] ∧ d' ≠ [] := by
    rintro d d' (hswap | ⟨hd, hd', -⟩)
    · exact codeSwaps_ne_nil (fun _ _ => hreplaces) hswap
    · exact ⟨hd, hd'⟩
  have halike := print_fill hdense hne (.inr fun d d' hd hd' hplaces => .inr ⟨hd, hd', hplaces⟩)
    (fun t u h => ⟨hreplaces h, .inl ⟨t, u, h, rfl, rfl⟩⟩) bindings rest hpairs
  refine (doc_alike halike).samePrint ?_
  rintro _ _ (⟨t, call, hmem, rfl, rfl⟩ | ⟨-, -, hplaces⟩)
  · obtain ⟨ht, hcall⟩ := List.of_mem_zip hmem
    obtain ⟨e, span, rfl, he⟩ := hcalls call hcall
    obtain rfl : t.span = span := (hreplaces hmem).span
    refine (samePrint_templateCall (hreplaces hmem).before he).mono ?_
    rintro c ⟨hposition, hsites⟩
    exact ⟨hposition, hsites t ht⟩
  · exact Doc.samePrint_of_places hplaces

/-- What a run of a module prints outside of the sites is what is left without its imports. -/
theorem samePrint_of_runFrom_module {f : Transform σ} {program : Program} {result : Tree}
    {done : Summary} {s s' : σ} (hanswers : f.precompiler.WithoutSpans)
    (h : (f.module program.source program.tree).runFrom s = (.ok (result, done), s')) :
    ∃ bindings rest, trackImports f.targets program.source program.tree = .ok (bindings, rest) ∧
      Doc.SamePrint (fun c => c.position ≠ 0 ∧ OutsideSites program.style bindings rest c)
        (rest.doc program.style) (result.doc program.style) := by
  obtain ⟨bindings, rest, calls, htrack, -, hsites, rfl, -⟩ := of_runFrom_module_ok h
  have hexpansions := expansions_of_runFrom hsites
  exact ⟨bindings, rest, htrack,
    samePrint_fill rfl (calls_of_expansions hanswers hexpansions)
      (replaces_of_expansions hexpansions)⟩

theorem samePrint_of_trackImports (style : Style) {targets : List Target} {source : Text}
    {tree rest : Tree} {bindings : List Binding} (hm : Script.Parse.IsModuleTree tree)
    (htrack : trackImports targets source tree = .ok (bindings, rest)) :
    Doc.SamePrint (fun c => c.place = (.leading, tree.span.lo) ∨
      OutsideImports style targets tree c.place) (tree.doc style) (rest.doc style) := by
  obtain ⟨hashbang, span, items, rfl⟩ := hm
  rw [rest_of_trackImports htrack]
  exact samePrint_rest

/-- **Comments outside of the sites are lost exactly where no token is left that has them.** When a
file with an import of a target is transformed, its text shows each comment at most once. Outside of
the sites it shows those that the module without its imports has a place for; and of the comments at
the start of the module or outside of the removed imports it shows the same as the print of the file
that was read, in the same order. Position 0 is none of a source: the tokens of a new call are there. -/
theorem comments_kept {f : Transform σ} {fileName source out : Text} {program : Program}
    {item : Tree} {s s' : σ}
    (hread : Program.ofSource? (.ofFileName fileName) source = .ok program)
    (hanswers : f.precompiler.WithoutSpans)
    (hitem : item ∈ program.tree.parts) (himports : importsFrom f.targets item = true)
    (h : (f.file fileName source).run.run s = (.ok out, s')) :
    ∃ bindings rest result,
      trackImports f.targets program.source program.tree = .ok (bindings, rest) ∧
      let after : Program := { program with tree := result }
      (∃ d, out = d.layout {} ∧ (result.doc program.style).Carries after.shown d) ∧
      (∀ c ∈ after.shown, after.shown.count c = program.comments.count c) ∧
      (∀ c ∈ program.comments, c.position ≠ 0 → OutsideSites program.style bindings rest c →
        (c ∈ after.shown ↔ c.place ∈ (rest.doc program.style).places)) ∧
      (∀ keep : PlacedComment → Bool,
        (∀ c ∈ program.comments, keep c = true →
          c.position ≠ 0 ∧ OutsideSites program.style bindings rest c ∧
          (c.place = (.leading, program.tree.span.lo) ∨
            OutsideImports program.style f.targets program.tree c.place)) →
        after.shown.filter keep = program.shown.filter keep) := by
  obtain ⟨-, hm⟩ := Program.of_ofSource? hread
  rw [run_file hread] at h
  split at h
  · cases h
  next result done s₁ hrun =>
  rw [isNoop_of_importsFrom hitem himports hrun] at h
  have hout : out = { program with tree := result }.render :=
    (Except.ok.inj (congrArg Prod.fst h)).symm
  obtain ⟨bindings, rest, htrack, hsites⟩ :=
    samePrint_of_runFrom_module hanswers hrun
  have hrest := samePrint_of_trackImports program.style hm htrack
  refine ⟨bindings, rest, result, htrack, hout ▸ Program.carries_render _,
    fun _ => Program.count_shown_of_mem, ?_, ?_⟩
  · intro c hc hposition houtside
    have hshown := Doc.mem_printed_iff (d := result.doc program.style) hc
    exact hshown.trans (hsites.mem_places_iff ⟨hposition, houtside⟩).symm
  · intro keep hkeep
    have hafter := hsites.filter_printed fun c hc hkept =>
      ⟨(hkeep c hc hkept).1, (hkeep c hc hkept).2.1⟩
    have hbefore := hrest.filter_printed fun c hc hkept => (hkeep c hc hkept).2.2
    exact hafter.symm.trans hbefore.symm

section
open Sample

namespace Sample

def importAt (lo : Nat) : Tree :=
  .item (.import false .evaluation) ⟨lo, lo + 45⟩
    [.list [.ofPart .importDefault ⟨lo + 7, lo + 10⟩ [.ofPart (.name tag) ⟨lo + 7, lo + 10⟩ []]],
      .ofPart (.string Target.standard.source (some (text "'htmlbars-inline-precompile'")))
        ⟨lo + 16, lo + 44⟩ [], .absent]

def useAt (lo : Nat) : Tree :=
  .expr .call ⟨lo, lo + 8⟩
    [.expr (.name tag) ⟨lo, lo + 3⟩ [],
      .list [.expr (.string (text "t") (some (text "'t'"))) ⟨lo + 4, lo + 7⟩ []], .absent]

def countedSource : Text :=
  text "// one\nimport hbs from 'htmlbars-inline-precompile';\n// two\nbar(hbs('t')); // three"

/-- What `countedSource` is read as: comments at the start, before a statement and at the end. -/
def counted : Program where
  source := countedSource
  tree := .node (.module none) ⟨8, 75⟩
    [importAt 8, .stmt .expr ⟨61, 75⟩
      [.expr .call ⟨61, 74⟩ [.expr (.name (text "bar")) ⟨61, 64⟩ [], .list [useAt 65], .absent]]]
  comments := [⟨.leading, 8, ⟨false, text " one"⟩⟩, ⟨.leading, 61, ⟨false, text " two"⟩⟩,
    ⟨.trailing, 75, ⟨false, text " three"⟩⟩]

def countedResult : Tree :=
  .node (.module none) ⟨8, 75⟩
    [.stmt .expr ⟨61, 75⟩
      [.expr .call ⟨61, 74⟩ [.expr (.name (text "bar")) ⟨61, 64⟩ [],
        .list [templateCall (literal (text "t")) ⟨65, 73⟩], .absent]]]

end Sample

theorem withoutSpans_transform : transform.precompiler.WithoutSpans := by
  intro template s t s' h
  cases h
  rfl

/-- All three comments of `countedSource` are kept. -/
theorem comments_kept_counted :
    let out := text "// one\n// two\nbar(Ember.HTMLBars.template(\"t\")); // three\n"
    (transform.file (text "a.js") countedSource).run.run () = (.ok out, ()) ∧
    ∃ bindings rest result,
      trackImports [Target.standard] counted.source counted.tree = .ok (bindings, rest) ∧
      let after : Program := { counted with tree := result }
      (∃ d, out = d.layout {} ∧ (result.doc counted.style).Carries after.shown d) ∧
      (∀ c ∈ after.shown, after.shown.count c = counted.comments.count c) ∧
      (∀ c ∈ counted.comments, c.position ≠ 0 → OutsideSites counted.style bindings rest c →
        (c ∈ after.shown ↔ c.place ∈ (rest.doc counted.style).places)) ∧
      (∀ keep : PlacedComment → Bool,
        (∀ c ∈ counted.comments, keep c = true →
          c.position ≠ 0 ∧ OutsideSites counted.style bindings rest c ∧
          (c.place = (.leading, counted.tree.span.lo) ∨
            OutsideImports counted.style [Target.standard] counted.tree c.place)) →
        after.shown.filter keep = counted.shown.filter keep) := by
  intro out
  have hread : Program.ofSource? (.ofFileName (text "a.js")) countedSource = .ok counted :=
    eq_ok_of_toOption (by decide +kernel)
  have hrun : (transform.file (text "a.js") countedSource).run.run () =
      (.ok out, ()) := by
    have hmodule : (transform.module counted.source counted.tree).runFrom () =
        (.ok (countedResult, ⟨1, 1⟩), ()) := rfl
    have hrender : { counted with tree := countedResult }.render = out := by decide +kernel
    rw [run_file hread, hmodule]
    exact congrArg (fun out => (Except.ok out, ())) hrender
  have hitem : importAt 8 ∈ counted.tree.parts := List.mem_cons_self
  exact ⟨hrun, comments_kept hread withoutSpans_transform hitem (by decide +kernel) hrun⟩

/-- A comment that stands between a statement and an import. -/
def Sample.notedSource : Text :=
  text "foo();\n/* note */\nimport hbs from 'htmlbars-inline-precompile';\nhbs('t');"

def Sample.note : PlacedComment := ⟨.leading, 19, ⟨true, text " note "⟩⟩

def Sample.noted : Program where
  source := notedSource
  tree := .node (.module none) ⟨1, 74⟩
    [.stmt .expr ⟨1, 7⟩
      [.expr .call ⟨1, 6⟩ [.expr (.name (text "foo")) ⟨1, 4⟩ [], .list [], .absent]],
      importAt 19, .stmt .expr ⟨65, 74⟩ [useAt 65]]
  comments := [note]

def Sample.notedResult : Tree :=
  .node (.module none) ⟨1, 74⟩
    [.stmt .expr ⟨1, 7⟩
      [.expr .call ⟨1, 6⟩ [.expr (.name (text "foo")) ⟨1, 4⟩ [], .list [], .absent]],
      .stmt .expr ⟨65, 74⟩ [templateCall (literal (text "t")) ⟨65, 73⟩]]

/-- The comment before an import is printed with the file that was read. It goes with the import,
although it stands outside of it. -/
theorem comment_before_import_lost :
    let out := text "foo();\nEmber.HTMLBars.template(\"t\");\n"
    Program.ofSource? (.ofFileName (text "a.js")) notedSource = .ok noted ∧
    note ∈ noted.shown ∧ note.place = (.leading, (importAt 19).span.lo) ∧
    importAt 19 ∈ noted.tree.parts ∧
    (transform.file (text "a.js") notedSource).run.run () = (.ok out, ()) ∧
    ¬ note.comment.content <:+: out := by
  intro out
  have hread : Program.ofSource? (.ofFileName (text "a.js")) notedSource = .ok noted :=
    eq_ok_of_toOption (by decide +kernel)
  have hmodule : (transform.module noted.source noted.tree).runFrom () =
      (.ok (notedResult, ⟨1, 1⟩), ()) := rfl
  have hrender : { noted with tree := notedResult }.render = out := by decide +kernel
  have hrun : (transform.file (text "a.js") notedSource).run.run () = (.ok out, ()) := by
    rw [run_file hread, hmodule]
    exact congrArg (fun out => (Except.ok out, ())) hrender
  exact ⟨hread, by decide +kernel, rfl, List.mem_cons_of_mem _ List.mem_cons_self, hrun,
    by decide +kernel⟩

end

end InlineTemplates
