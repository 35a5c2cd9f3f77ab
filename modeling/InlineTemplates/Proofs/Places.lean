import InlineTemplates.Proofs.Data.Filling
import InlineTemplates.Proofs.Host.Reading
import InlineTemplates.Proofs.Host.Run
import InlineTemplates.Proofs.InPlace

/-! # Places for calls

A changed module is printed with its calls in the places of their sites, as they are. Among data the
calls are read there. Behind `new` they are not: `new` takes the arguments of the call. -/

namespace InlineTemplates

open Script (Tree Dialect Style Doc Datum Declarable)

variable {bindings : List Binding} {d : Dialect} {s : Style} {t rest : Tree} {ts us : List Tree}

/-! ## Among data -/

/-- The item is read as it was printed with data for its sites: it has none, or it is a variable and
its value is data where `null` stands for each. -/
def TakesData (bindings : List Binding) (d : Dialect) (s : Style) (t : Tree) : Prop :=
  (outermost bindings t = [] ∧ ReadsInPrint d s t) ∨
  ∃ (h : Holder) (value : Tree), t = h.tree value ∧ Declarable h.name ∧
    (frameOf bindings value).HoldsData

theorem readsInPrint_fill (hs : s.dense = false) (hlegal : s.comments.Legal)
    (h : TakesData bindings d s t) (hlength : us.length = (outermost bindings t).length)
    (hus : ∀ u ∈ us, u.IsData) : ReadsInPrint d s ((frameOf bindings t).fill us) := by
  obtain ⟨hnone, hread⟩ | ⟨h, value, rfl, hn, datum, hdatum, hnulled⟩ := h
  · obtain rfl : us = [] := List.eq_nil_of_length_eq_zero (by rw [hlength, hnone]; rfl)
    rwa [fill_of_no_site hnone]
  · rw [Holder.outermost_tree] at hlength
    rw [Holder.fill_tree hlength]
    rw [← holes_frameOf] at hlength
    refine readsInPrint_dataVariable hs hlegal ⟨h, _, rfl, hn, ?_⟩
    exact Frame.isData_fill datum _ us hdatum hnulled hlength hus

theorem readsInPrint_fillAll (hs : s.dense = false) (hlegal : s.comments.Legal)
    (h : ∀ t ∈ ts, TakesData bindings d s t)
    (hlength : us.length = (outermostOfAll bindings ts).length) (hus : ∀ u ∈ us, u.IsData) :
    ∀ t ∈ Frame.fillAll (frameOfAll bindings ts) us, ReadsInPrint d s t := by
  induction ts generalizing us with
  | nil => exact nofun
  | cons t ts ih =>
    rw [outermostOfAll, List.length_append] at hlength
    rw [frameOfAll, Frame.fillAll, holes_frameOf]
    refine List.forall_mem_cons.mpr ⟨?_, ?_⟩
    · refine readsInPrint_fill hs hlegal (h t List.mem_cons_self) (by simp; omega) ?_
      exact fun u hu => hus u (List.mem_of_mem_take hu)
    · refine ih (fun t ht => h t (List.mem_cons_of_mem _ ht)) (by simp; omega) ?_
      exact fun u hu => hus u (List.mem_of_mem_drop hu)

theorem isData_of_expansions {σ : Type} {p : Precompiler σ} {s s' : σ} {sites : List Site}
    {calls : List Tree} (hp : ∀ template span s e s',
      (precompile p template span).runFrom s = (.ok e, s') → e.IsData)
    (h : Expansions p s sites calls s') :
    ∀ call ∈ calls, ∃ e span, call = templateCall e span ∧ e.IsData := by
  induction h with
  | nil => exact nofun
  | cons _ hgiven _ ih => exact List.forall_mem_cons.mpr ⟨⟨_, _, rfl, hp _ _ _ _ _ hgiven⟩, ih⟩

/-- The module with data in the places of its sites is read as it was printed. -/
theorem readsBack_fill {hashbang : Option Text} {whole : Span} {source : Text}
    (hline : ∀ content, hashbang = some content → ∀ ch ∈ content, Text.isLineEnd ch = false)
    (h : ∀ t ∈ ts, TakesData bindings d { source := source } t)
    (hlength : us.length = (outermostOfAll bindings ts).length) (hus : ∀ u ∈ us, u.IsData) :
    ReadsBack d source ((frameOf bindings (.node (.module hashbang) whole ts)).fill us) := by
  exact readAs?_module (s := { source := source }) nofun
    (fun content heq => ⟨hline content heq, nofun⟩)
    (readsInPrint_fillAll rfl ⟨nofun, nofun⟩ h hlength hus)

/-! ## Behind `new` -/

section
variable {hashbang : Option Text} {whole span outer : Span} {before after args calls : List Tree}
  {use : Tree} {site : Site}

/-- `new` with arguments, over a use. -/
def newOfUse (outer : Span) (use : Tree) (args : List Tree) : Tree :=
  .expr (.new true) outer [use, .list args, .absent]

theorem fill_newOfUse (hsite : siteOf? bindings use = some site) (call : Tree) :
    ∃ args', (frameOf bindings (.stmt .expr span [newOfUse outer use args])).fill (call :: us) =
      .stmt .expr span [newOfUse outer call args'] := by
  have huse : frameOf bindings use = .hole := by
    cases use with
    | node kind span parts => rw [frameOf, hsite]
  have hframe : frameOf bindings (.stmt .expr span [newOfUse outer use args]) =
      .node (.stmt .expr) span [.node (.expr (.new true)) outer
        [.hole, .node .list .nowhere (frameOfAll bindings args), .node .absent .nowhere []]] := by
    rw [← huse]
    rfl
  rw [hframe]
  simp only [Frame.fill, Frame.fillAll, Frame.holes, Frame.holesOfAll, Nat.add_comm 1,
    List.take_succ_cons]
  exact ⟨_, rfl⟩

theorem fill_behind_new (hsite : siteOf? bindings use = some site)
    (h : List.Forall₂ (fun use call => ∃ e, call = templateCall e use.span)
      (outermost bindings (moduleAround hashbang whole span before after (newOfUse outer use args)))
      calls) :
    ∃ before' after' args' e,
      (frameOf bindings
          (moduleAround hashbang whole span before after (newOfUse outer use args))).fill calls =
        moduleAround hashbang whole span before' after' (newOfCall outer use.span e args') := by
  let made : Tree := .stmt .expr span [newOfUse outer use args]
  obtain ⟨more, hmade⟩ : ∃ more, outermost bindings made = use :: more := by
    have hparts : outermost bindings made =
        (outermost bindings use ++ outermostOfAll bindings [.list args, .absent]) ++ [] := rfl
    rw [hparts, outermost_of_site hsite]
    exact ⟨_, rfl⟩
  have houtermost : outermost bindings
      (moduleAround hashbang whole span before after (newOfUse outer use args)) =
        outermostOfAll bindings before ++ (use :: (more ++ outermostOfAll bindings after)) := by
    have hparts : outermost bindings
        (moduleAround hashbang whole span before after (newOfUse outer use args)) =
          outermostOfAll bindings (before ++ made :: after) := rfl
    rw [hparts, outermostOfAll_eq_flatMap, List.flatMap_append, List.flatMap_cons, hmade,
      ← outermostOfAll_eq_flatMap, ← outermostOfAll_eq_flatMap]
    rfl
  have hframe : frameOf bindings
      (moduleAround hashbang whole span before after (newOfUse outer use args)) =
        .node (.module hashbang) whole
          (frameOfAll bindings before ++ frameOf bindings made :: frameOfAll bindings after) := by
    simp only [frameOfAll_eq_map, ← List.map_cons, ← List.map_append]
    rw [← frameOfAll_eq_map]
    rfl
  have hbefore := holesOfAll_frameOfAll bindings before
  rw [houtermost] at h
  have hlater := List.forall₂_drop (outermostOfAll bindings before).length h
  rw [List.drop_left] at hlater
  generalize hcalls : calls.drop (outermostOfAll bindings before).length = later at hlater
  cases hlater with
  | cons hcall _ =>
    obtain ⟨e, rfl⟩ := hcall
    rw [hframe, Frame.fill, Frame.fillAll_append_frames, hbefore, hcalls, Frame.fillAll,
      holes_frameOf, hmade, List.length_cons, List.take_succ_cons]
    obtain ⟨args', hfilled⟩ := fill_newOfUse hsite (templateCall e use.span)
    rw [hfilled]
    exact ⟨_, _, args', e, rfl⟩

end

/-! ## The printed module -/

/-- **What is printed for a changed module is what is printed for the module without its imports,
with the code of each call in the place of the code of its site.** Nothing around a site changes; in
particular no parentheses come or go. So the places decide whether the print is read back. Where each
site stands in the value of a variable, among data, it is; where one stands behind `new` with
arguments, it is not if it is read back as a call of what `new` makes. -/
theorem printed_in_place {σ : Type} {f : Transform σ} {source : Text} {m result : Tree}
    {done : Summary} {s s' : σ} (h : (f.module source m).runFrom s = (.ok (result, done), s')) :
    ∃ bindings rest calls,
      trackImports f.targets source m = .ok (bindings, rest) ∧
      Expansions f.precompiler s (outermostSites bindings rest) calls s' ∧
      (outermost bindings rest).length = calls.length ∧
      Doc.Spliced (codeSwaps { source := source } fun site call =>
          (site, call) ∈ (outermost bindings rest).zip calls)
        (rest.doc { source := source }) (result.doc { source := source }) ∧
      (∀ (d : Dialect) (hashbang : Option Text) (whole : Span) (items : List Tree),
        rest = .node (.module hashbang) whole items →
        (∀ content, hashbang = some content → ∀ ch ∈ content, Text.isLineEnd ch = false) →
        (∀ item ∈ items, TakesData bindings d { source := source } item) →
        (∀ call ∈ calls, ∃ e span, call = templateCall e span ∧ e.IsData) →
        ReadsBack d source result) ∧
      (∀ hashbang whole span before after outer use args site, siteOf? bindings use = some site →
        rest = moduleAround hashbang whole span before after (newOfUse outer use args) →
        ∃ before' after' args' e,
          result = moduleAround hashbang whole span before' after'
            (newOfCall outer use.span e args') ∧
          ∀ d, ReadsBack d source (moduleAround hashbang whole span before' after'
              (callOfNew outer use.span e args')) →
            ¬ ReadsBack d source result) := by
  obtain ⟨bindings, rest, calls, htrack, -, hrun, rfl, -⟩ := of_runFrom_module_ok h
  have hexpansions := expansions_of_runFrom hrun
  have hcalls := calls_for_sites hexpansions
  refine ⟨bindings, rest, calls, htrack, hexpansions, hcalls.length_eq, ?_, ?_, ?_⟩
  · exact spliced_of_runFrom rfl rfl hexpansions
  · rintro d hashbang whole items rfl hline hitems hdata
    refine readsBack_fill hline hitems hcalls.length_eq.symm fun call hcall => ?_
    obtain ⟨e, span, rfl, he⟩ := hdata call hcall
    exact Script.isData_templateCall he span
  · rintro hashbang whole span before after outer use args site hsite rfl
    obtain ⟨before', after', args', e, hfill⟩ := fill_behind_new hsite hcalls
    refine ⟨before', after', args', e, hfill, fun d hother => ?_⟩
    rw [hfill]
    exact not_readsBack_newOfCall hother

section
open Sample

namespace Sample

/-- `const x = [hbs('t')];` behind the import. -/
def listedUse : Tree := moduleOf [writtenImport, initialised (.expr .array .nowhere [hostUse])]

/-- `const x = [Ember.HTMLBars.template(t)];` -/
def listedCall : Tree :=
  moduleOf [initialised (.expr .array .nowhere [templateCall answer hostUse.span])]

end Sample

/-- A use in an array is read back as the call. -/
theorem printed_in_place_listedUse :
    ((answering (text "t")).module [] listedUse).runFrom () = (.ok (listedCall, ⟨1, 1⟩), ()) ∧
    ∀ d, ReadsBack d [] listedCall := by
  have hrun : ((answering (text "t")).module [] listedUse).runFrom () =
      (.ok (listedCall, ⟨1, 1⟩), ()) :=
    Prod.ext (eq_ok_of_toOption (by decide +kernel)) (Subsingleton.elim _ _)
  refine ⟨hrun, fun d => ?_⟩
  obtain ⟨bindings, rest, calls, htrack, hexpansions, -, -, hread, -⟩ :=
    printed_in_place hrun
  have hrest : trackImports [Target.standard] [] listedUse =
      .ok (tracked, moduleOf [initialised (.expr .array .nowhere [hostUse])]) :=
    eq_ok_of_toOption (by decide +kernel)
  obtain ⟨rfl, rfl⟩ := Prod.mk.inj (Except.ok.inj (htrack.symm.trans hrest))
  refine hread d none .nowhere _ rfl nofun (fun item hitem => .inr ?_) ?_
  · obtain rfl := List.mem_singleton.mp hitem
    refine ⟨⟨⟨47, 66⟩, .const, ⟨53, 65⟩, ⟨53, 54⟩, text "x"⟩, _, rfl, by decide, ?_⟩
    exact ⟨.array [.null], ⟨trivial, trivial⟩, rfl⟩
  · refine isData_of_expansions (fun template span s e s' hgiven => ?_) hexpansions
    have hanswer : (precompile (answering (text "t")).precompiler template span).runFrom s =
        (.ok answer, s) :=
      runFrom_precompile_code rfl (eq_ok_of_toOption (by decide +kernel)) span
    obtain ⟨hanswered, -⟩ := Prod.mk.inj (hgiven.symm.trans hanswer)
    obtain rfl := Except.ok.inj hanswered
    exact ⟨.dotted (text "t") [], ⟨by decide, by decide, nofun⟩, rfl⟩

end

end InlineTemplates
