import InlineTemplates.Proofs.Faces
import InlineTemplates.Proofs.Failures
import InlineTemplates.Proofs.ReadBack
import InlineTemplates.Proofs.Reading
import Mathlib.Data.List.Count

/-! # Where errors point

An error of a transform is at the line and the column where the offending construct begins in the
file. Columns count the units of UTF-16, and a byte order mark is no part of the text. -/

namespace InlineTemplates

open Script (Tree Kind Program fragment?)

variable {σ : Type} {source : Text}

/-! ## Lines and columns -/

/-- Whether a line ends with the character at an index. -/
def EndsLine (source : Text) (i : Nat) : Prop :=
  source[i]? = some '\n' ∨ source[i]? = some '\r' ∧ source[i + 1]? ≠ some '\n'

instance (source : Text) (i : Nat) : Decidable (EndsLine source i) :=
  inferInstanceAs (Decidable (_ ∨ _ ∧ _))

def utf16Length (t : Text) : Nat := t.foldr (fun c n => (if c.toNat < 65536 then 1 else 2) + n) 0

/-- The place behind the first `n` characters: one line for each line end among them and one more, and
in that line the units since the last line end and one more. -/
def IsPlaceAfter (source : Text) (n : Nat) (place : Place) : Prop :=
  ∃ start ≤ n, (start = 0 ∨ EndsLine source (start - 1)) ∧
    (∀ i, start ≤ i → i < n → ¬ EndsLine source i) ∧
    place.line = 1 + (List.range n).countP (EndsLine source ·) ∧
    place.column = 1 + utf16Length ((source.drop start).take (n - start))

theorem utf16Length_append (t u : Text) : utf16Length (t ++ u) = utf16Length t + utf16Length u := by
  induction t with
  | nil => exact (Nat.zero_add _).symm
  | cons c t ih => exact (congrArg _ ih).trans (Nat.add_assoc _ _ _).symm

theorem columnsOf_eq_utf16Length (c : Char) : Place.columnsOf c = utf16Length [c] := by
  have hsize : (c.utf8Size == 4) = !decide (c.toNat < 65536) := by
    unfold Char.utf8Size
    simp only [UInt32.le_iff_toNat_le]
    change _ = !decide (c.val.toNat < 65536)
    split
    · next h => simp at h ⊢; omega
    · split
      · next h => simp at h ⊢; omega
      · split
        · next h => simp at h ⊢; omega
        · next h => simp at h ⊢; omega
  rw [Place.columnsOf, hsize, utf16Length]
  cases h : decide (c.toNat < 65536) with
  | true => simp_all
  | false => simp_all

theorem endsLine_iff {n : Nat} {c : Char} (hc : source[n]? = some c) :
    EndsLine source n ↔ (c == '\n' || (c == '\r' && source[n + 1]? != some '\n')) = true := by
  simp [EndsLine, hc]

theorem isPlaceAfter_zero (source : Text) : IsPlaceAfter source 0 ⟨1, 1⟩ := by
  refine ⟨0, Nat.le_refl 0, .inl rfl, fun i _ hi => absurd hi (Nat.not_lt_zero i), rfl, ?_⟩
  simp [utf16Length]

theorem IsPlaceAfter.step {n : Nat} {c : Char} {place : Place} (h : IsPlaceAfter source n place)
    (hc : source[n]? = some c) : IsPlaceAfter source (n + 1) (place.step c source[n + 1]?) := by
  obtain ⟨start, hstart, hfirst, hinside, hline, hcolumn⟩ := h
  have hcount : (List.range (n + 1)).countP (EndsLine source ·) =
      (List.range n).countP (EndsLine source ·) + if EndsLine source n then 1 else 0 := by
    rw [List.range_succ, List.countP_append, List.countP_singleton]
    simp only [decide_eq_true_eq]
  rw [Place.step]
  by_cases hends : EndsLine source n
  · -- A new line begins behind the character.
    rw [if_pos ((endsLine_iff hc).mp hends)]
    refine ⟨n + 1, Nat.le_refl _, .inr hends, fun i hi hlt => absurd hlt (by omega), ?_, ?_⟩
    · rw [hcount, if_pos hends, ← Nat.add_assoc, ← hline]
    · simp [utf16Length]
  · rw [if_neg (mt (endsLine_iff hc).mpr hends)]
    refine ⟨start, by omega, hfirst, ?_, ?_, ?_⟩
    · intro i hi hlt
      rcases Nat.lt_succ_iff_lt_or_eq.mp hlt with hlt | rfl
      · exact hinside i hi hlt
      · exact hends
    · rw [hcount, if_neg hends, hline]
      omega
    · have hlast : (source.drop start).take (n + 1 - start) =
          (source.drop start).take (n - start) ++ [c] := by
        rw [Nat.sub_add_comm hstart, List.take_add_one, List.getElem?_drop,
          Nat.add_sub_cancel' hstart, hc]
        rfl
      rw [hlast, utf16Length_append, hcolumn, columnsOf_eq_utf16Length, Nat.add_assoc]

theorem IsPlaceAfter.walk {k : Nat} :
    ∀ {n : Nat} {place : Place}, IsPlaceAfter source n place → n + k ≤ source.length →
      IsPlaceAfter source (n + k) (place.walk (source.drop n) k) := by
  induction k with
  | zero =>
    intro n place h _
    have hwalk : place.walk (source.drop n) 0 = place := by
      cases source.drop n <;> rfl
    rw [hwalk]
    exact h
  | succ k ih =>
    intro n place h hle
    have hlt : n < source.length := by omega
    have hdrop : source.drop n = source[n] :: source.drop (n + 1) := List.drop_eq_getElem_cons hlt
    have hhead : (source.drop (n + 1)).head? = source[n + 1]? := List.head?_drop
    rw [hdrop, Place.walk, hhead, ← Nat.add_assoc, Nat.add_right_comm]
    exact ih (h.step (List.getElem?_eq_getElem hlt)) (by omega)

theorem isPlaceAfter_of {position : Nat} (hpos : 1 ≤ position) (hle : position ≤ source.length + 1) :
    IsPlaceAfter source (position - 1) (.of source position) := by
  have h := (isPlaceAfter_zero source).walk (k := position - 1) (by omega)
  rw [Nat.zero_add] at h
  exact h

/-! ## Offending constructs -/

/-- What a site hands over besides the strings of a template. -/
def SiteForm.given : SiteForm → List Tree
  | tagged placeholders _ => placeholders
  | call arguments => arguments

/-- A construct in the module is the site that a use of a tracked name is. -/
def IsSiteIn (targets : List Target) (source : Text) (m u : Tree) (site : Site) : Prop :=
  ∃ bindings rest, trackImports targets source m = .ok (bindings, rest) ∧ u ∈ rest.nodes ∧
    siteOf? bindings u = some site

/-- The construct that a run of a module fails at, and what it fails with: the first import that is
refused, the first name that is tracked and declared or assigned, or of the first site that cannot be
expanded the first placeholder, an only argument that is neither spread nor a string, or else the site
itself, also where the precompiler fails or answers with code that is no expression. -/
inductive Offends (f : Transform σ) (source : Text) (m : Tree) (s : σ) :
    TransformErrorKind → Tree → Prop where
  | refused {item e} (h : RefusedImport f.targets source [] m.parts item e) :
      Offends f source m s e.kind item
  | shadowed {bindings rest u o e}
      (htrack : trackImports f.targets source m = .ok (bindings, rest))
      (hfirst : FirstShadowing bindings (declarations rest) o e)
      (hu : u ∈ rest.nodes) (ho : occurrence? u = some o) :
      Offends f source m s e.kind u
  | placeholder {u site s₁ first others strings} (hcome : ComesTo f source m s u site s₁)
      (hform : site.form = .tagged (first :: others) strings) :
      Offends f source m s .placeholder first
  | arity {u site s₁ arguments} (hcome : ComesTo f source m s u site s₁)
      (hform : site.form = .call arguments)
      (hnone : ∀ argument, arguments = [argument] → argument.kind = .part .spread) :
      Offends f source m s (.arity site.binding.name) u
  | argumentType {u site s₁ argument} (hcome : ComesTo f source m s u site s₁)
      (hform : site.form = .call [argument]) (hspread : argument.kind ≠ .part .spread)
      (hstring : ∀ value raw, argument.kind ≠ .expr (.string value raw)) :
      Offends f source m s (.argumentType site.binding.name) argument
  | precompile {u site s₁ template message} (hcome : ComesTo f source m s u site s₁)
      (hread : site.template? = .ok template)
      (hanswer : (f.precompiler template s₁).1 = .failure message) :
      Offends f source m s (.precompile message) u
  | output {u site s₁ template code d} (hcome : ComesTo f source m s u site s₁)
      (hread : site.template? = .ok template) (hanswer : (f.precompiler template s₁).1 = .code code)
      (hcode : fragment? code = .error d) :
      Offends f source m s (.output code d.kind) u

/-- A node that something in the source stands for, as opposed to a missing part and to a list. -/
def Script.Tree.isConstruct (t : Tree) : Bool := match t.kind with
  | .absent | .list => false
  | _ => true

/-- What a tree hands over besides the strings of a template, if it has the form of a site. -/
def handedOver (t : Tree) : List Tree := (useOf? t).toList.flatMap fun use => use.2.given

/-- Every construct of the module has its own range in the text, and what is handed over by a use of a
name are constructs. -/
structure HasRanges (source : Text) (m : Tree) : Prop where
  range : ∀ u ∈ m.nodes, u.isConstruct = true →
    1 ≤ u.span.lo ∧ u.span.lo ≤ u.span.hi ∧ u.span.hi ≤ source.length + 1
  given : ∀ u ∈ m.nodes, ∀ t ∈ handedOver u, t.isConstruct = true

instance (source : Text) (m : Tree) : Decidable (HasRanges source m) :=
  decidable_of_iff
    ((∀ u ∈ m.nodes, u.isConstruct = true →
        1 ≤ u.span.lo ∧ u.span.lo ≤ u.span.hi ∧ u.span.hi ≤ source.length + 1) ∧
      ∀ u ∈ m.nodes, ∀ t ∈ handedOver u, t.isConstruct = true)
    ⟨fun h => ⟨h.1, h.2⟩, fun h => ⟨h.range, h.given⟩⟩

section
variable {targets : List Target} {m t u v : Tree}

theorem Script.Tree.mem_nodes_trans (hu : u ∈ t.nodes) (hv : v ∈ u.nodes) : v ∈ t.nodes := by
  induction t using Tree.induct with
  | node kind span parts ih =>
    rcases Tree.mem_nodes_node.mp hu with rfl | ⟨p, hp, hu⟩
    · exact hv
    · exact Tree.mem_nodes_node.mpr (.inr ⟨p, hp, ih p hp hu⟩)

theorem Script.Tree.mem_nodes_of_mem_parts (h : u ∈ t.parts) : u ∈ t.nodes := by
  cases t
  exact Tree.mem_nodes_node.mpr (.inr ⟨u, h, u.self_mem_nodes⟩)

theorem Script.Tree.mem_nodes_of_mem_items {i : Nat} (h : u ∈ t.items i) : u ∈ t.nodes := by
  unfold Tree.items Tree.part at h
  rw [List.getD_eq_getElem?_getD] at h
  cases hpart : t.parts[i]? with
  | none =>
    rw [hpart] at h
    cases h
  | some p =>
    rw [hpart] at h
    have hp : p ∈ t.parts := List.mem_of_getElem? hpart
    exact Tree.mem_nodes_trans (Tree.mem_nodes_of_mem_parts hp) (Tree.mem_nodes_of_mem_parts h)

theorem mem_nodes_of_handedOver (ht : t ∈ handedOver u) : t ∈ u.nodes := by
  obtain ⟨use, huse, ht⟩ := List.mem_flatMap.mp ht
  rw [Option.mem_toList] at huse
  unfold useOf? at huse
  split at huse
  · next span head typeArgs template =>
    obtain ⟨name, -, rfl⟩ := Option.map_eq_some_iff.mp huse
    have hin : t ∈ template.nodes := Tree.mem_nodes_of_mem_items ht
    exact Tree.mem_nodes_node.mpr (.inr ⟨template, by simp, hin⟩)
  · next span head arguments others =>
    obtain ⟨name, -, rfl⟩ := Option.map_eq_some_iff.mp huse
    have hin : t ∈ arguments.nodes := Tree.mem_nodes_of_mem_parts ht
    exact Tree.mem_nodes_node.mpr (.inr ⟨arguments, by simp, hin⟩)
  · cases huse

theorem handedOver_of_siteOf? {bindings : List Binding} {site : Site}
    (h : siteOf? bindings u = some site) : handedOver u = site.form.given := by
  rw [siteOf?_eq_use] at h
  obtain ⟨use, huse, h⟩ := Option.bind_eq_some_iff.mp h
  obtain ⟨b, -, rfl⟩ := Option.map_eq_some_iff.mp h
  rw [handedOver, huse]
  exact List.append_nil _

theorem occurs_of_ownDeclaration? {o : Occurrence} (h : ownDeclaration? u = some o) :
    ∃ v ∈ u.nodes, occurrence? v = some o := by
  have hfirst : ∀ {kind : Kind} {span : Span} {name : Tree} {others : List Tree},
      occurrence? name = some o →
      ∃ v ∈ (Script.Tree.node kind span (name :: others)).nodes, occurrence? v = some o := by
    intro kind span name others ho
    exact ⟨name, Tree.mem_nodes_of_mem_parts List.mem_cons_self, ho⟩
  unfold ownDeclaration? at h
  split at h
  · exact ⟨_, Tree.self_mem_nodes _, h⟩
  · split at h
    · exact hfirst h
    · cases h
  · exact hfirst h
  · exact hfirst h
  · exact hfirst h
  · exact hfirst h
  · exact hfirst h
  · exact hfirst h
  · exact hfirst h
  · cases h

theorem span_of_occurrence? {o : Occurrence} (h : occurrence? u = some o) : o.span = u.span := by
  rw [occurrence?_eq_word] at h
  obtain ⟨n, -, rfl⟩ := Option.map_eq_some_iff.mp h
  rfl

theorem occurs_of_mem_declarations {o : Occurrence} (h : o ∈ declarations t) :
    ∃ u ∈ t.nodes, occurrence? u = some o := by
  rw [declarations_eq_flatMap, List.mem_flatMap] at h
  obtain ⟨v, hv, ho⟩ := h
  obtain ⟨u, hu, hoccurs⟩ := occurs_of_ownDeclaration? (Option.mem_toList.mp ho)
  exact ⟨u, Tree.mem_nodes_trans ((mem_nodes_iff t).mpr (.inl hv)) hu, hoccurs⟩

theorem mem_nodes_of_rest {bindings : List Binding} {rest : Tree} (hm : Script.Parse.IsModuleTree m)
    (htrack : trackImports targets source m = .ok (bindings, rest)) (hu : u ∈ rest.nodes)
    (hkind : ∀ hashbang, u.kind ≠ .module hashbang) : u ∈ m.nodes := by
  obtain ⟨hashbang, span, items, rfl⟩ := hm
  rw [rest_of_trackImports htrack] at hu
  rcases Tree.mem_nodes_node.mp hu with rfl | ⟨item, hitem, hu⟩
  · exact absurd rfl (hkind hashbang)
  · exact Tree.mem_nodes_node.mpr (.inr ⟨item, (List.mem_filter.mp hitem).1, hu⟩)

theorem IsSiteIn.mem {site : Site} (h : IsSiteIn targets source m u site)
    (hm : Script.Parse.IsModuleTree m) : u ∈ m.nodes ∧ u.isConstruct = true ∧
      handedOver u = site.form.given := by
  obtain ⟨bindings, rest, htrack, hu, hsite⟩ := h
  have happlied := isApplied_of_siteOf? hsite
  refine ⟨mem_nodes_of_rest hm htrack hu ?_, ?_, handedOver_of_siteOf? hsite⟩
  · intro hashbang hkind
    rw [hkind] at happlied
    cases happlied
  · unfold Script.Tree.isConstruct
    rcases Script.Kind.of_isApplied happlied with hkind | hkind <;> rw [hkind]

theorem ComesTo.isSiteIn {f : Transform σ} {s s₁ : σ} {site : Site}
    (h : ComesTo f source m s u site s₁) : IsSiteIn f.targets source m u site := by
  obtain @⟨bindings, rest, earlier, later, calls, htrack, -, hsites, hsite, -⟩ := h
  have hu : u ∈ outermost bindings rest := by
    rw [hsites]
    exact List.mem_append_right _ List.mem_cons_self
  exact ⟨bindings, rest, htrack, mem_nodes_of_mem_outermost hu, hsite⟩

theorem isConstruct_of_importTarget? {item : Tree} {target : Target}
    (h : importTarget? targets item = some target) : item.isConstruct = true := by
  obtain ⟨imported, hsource, -⟩ := Option.bind_eq_some_iff.mp h
  unfold importSource? at hsource
  split at hsource
  · rfl
  · cases hsource

theorem Offends.mem {f : Transform σ} {s : σ} {kind : TransformErrorKind}
    (h : Offends f source m s kind u) (hm : Script.Parse.IsModuleTree m)
    (hranges : HasRanges source m) : u ∈ m.nodes ∧ u.isConstruct = true := by
  have hgiven : ∀ {v site s₁}, ComesTo f source m s v site s₁ → u ∈ site.form.given →
      u ∈ m.nodes ∧ u.isConstruct = true := by
    intro v site s₁ hcome hu
    obtain ⟨hv, -, hhanded⟩ := hcome.isSiteIn.mem hm
    rw [← hhanded] at hu
    exact ⟨Tree.mem_nodes_trans hv (mem_nodes_of_handedOver hu), hranges.given v hv u hu⟩
  cases h with
  | refused h =>
    refine ⟨Tree.mem_nodes_of_mem_parts h.mem, ?_⟩
    cases h with
    | form _ _ htarget | duplicate _ _ htarget => exact isConstruct_of_importTarget? htarget
  | shadowed htrack hfirst hu ho =>
    rw [occurrence?_eq_word] at ho
    obtain ⟨n, hword, -⟩ := Option.map_eq_some_iff.mp ho
    refine ⟨mem_nodes_of_rest hm htrack hu ?_, ?_⟩
    · intro hashbang hkind
      rw [hkind] at hword
      cases hword
    · unfold Script.Tree.isConstruct
      split
      · next hkind => rw [hkind] at hword; cases hword
      · next hkind => rw [hkind] at hword; cases hword
      · rfl
  | placeholder hcome hform | argumentType hcome hform =>
    refine hgiven hcome ?_
    rw [hform]
    exact List.mem_cons_self
  | arity hcome | precompile hcome | output hcome =>
    obtain ⟨hu, hconstruct, -⟩ := hcome.isSiteIn.mem hm
    exact ⟨hu, hconstruct⟩

theorem offends_of_runFrom_module {f : Transform σ} {e : TransformError} {s : σ}
    (h : ((f.module source m).runFrom s).1 = .error e) :
    ∃ u, Offends f source m s e.kind u ∧ e.span = u.span := by
  rcases runFrom_module_error_iff.mp h with
    ⟨item, hrefused⟩ | ⟨bindings, rest, o, htrack, hfirst⟩ | ⟨u, site, s₁, hcome, hfault⟩
  · exact ⟨item, .refused hrefused, hrefused.span_eq⟩
  · obtain ⟨u, hu, ho⟩ := occurs_of_mem_declarations hfirst.mem
    exact ⟨u, .shadowed htrack hfirst hu ho, hfirst.span_eq.trans (span_of_occurrence? ho)⟩
  · cases hfault with
    | placeholder hform => exact ⟨_, .placeholder hcome hform, rfl⟩
    | arity hform hnone => exact ⟨u, .arity hcome hform hnone, hcome.span_eq⟩
    | argumentType hform hspread hstring =>
      exact ⟨_, .argumentType hcome hform hspread hstring, rfl⟩
    | precompile hread hanswer => exact ⟨u, .precompile hcome hread hanswer, hcome.span_eq⟩
    | output hread hanswer hcode => exact ⟨u, .output hcome hread hanswer hcode, hcome.span_eq⟩

/-- An offending construct settles how a run ends: with this error and the construct's span. -/
theorem Offends.run {f : Transform σ} {kind : TransformErrorKind} {s : σ}
    (h : Offends f source m s kind u) :
    ((f.module source m).runFrom s).1 = .error ⟨u.span, kind⟩ := by
  rw [runFrom_module_error_iff]
  cases h with
  | refused hrefused =>
    rw [← hrefused.span_eq]
    exact .inl ⟨u, hrefused⟩
  | shadowed htrack hfirst hu ho =>
    rw [← span_of_occurrence? ho, ← hfirst.span_eq]
    exact .inr (.inl ⟨_, _, _, htrack, hfirst⟩)
  | placeholder hcome hform => exact .inr (.inr ⟨_, _, _, hcome, .placeholder hform⟩)
  | arity hcome hform hnone =>
    rw [← hcome.span_eq]
    exact .inr (.inr ⟨_, _, _, hcome, .arity hform hnone⟩)
  | argumentType hcome hform hspread hstring =>
    exact .inr (.inr ⟨_, _, _, hcome, .argumentType hform hspread hstring⟩)
  | precompile hcome hread hanswer =>
    rw [← hcome.span_eq]
    exact .inr (.inr ⟨_, _, _, hcome, .precompile hread hanswer⟩)
  | output hcome hread hanswer hcode =>
    rw [← hcome.span_eq]
    exact .inr (.inr ⟨_, _, _, hcome, .output hread hanswer hcode⟩)

end

/-! ## Files -/

theorem of_run_file_transform_error {f : Transform σ} {fileName : Text} {e : CompileError}
    {kind : TransformErrorKind} {s s' : σ}
    (h : (f.file fileName source).run.run s = (.error e, s')) (hkind : e.kind = .transform kind) :
    ∃ program d, Program.ofSource? (.ofFileName fileName) source = .ok program ∧
      (f.module program.source program.tree).runFrom s = (.error d, s') ∧ d.kind = kind ∧
      e = .atSpan (.transform kind) fileName program.source d.span := by
  cases hread : Program.ofSource? (.ofFileName fileName) source with
  | error d =>
    unfold Transform.file at h
    rw [hread] at h
    cases h
    cases hkind
  | ok program =>
    rw [run_file hread] at h
    split at h
    · next d s₁ hrun =>
      cases h
      cases hkind
      exact ⟨program, d, rfl, hrun, rfl, rfl⟩
    · cases h

/-- **An error of a transform points at the offending construct.** Where every construct of a module
has its own range, the error of a file that cannot be transformed is at the line and the column in
which the construct that the run fails at begins, counted from 1 in the text of the file itself. All
constructs at which the run could be said to fail have one place and one error. -/
theorem transform_error_at_construct {f : Transform σ} {fileName source : Text} {e : CompileError}
    {kind : TransformErrorKind} {s s' : σ}
    (hranges : ∀ program, Program.ofSource? (.ofFileName fileName) source = .ok program →
      HasRanges program.source program.tree)
    (h : (f.file fileName source).run.run s = (.error e, s')) (hkind : e.kind = .transform kind) :
    ∃ program u, Program.ofSource? (.ofFileName fileName) source = .ok program ∧
      Offends f program.source program.tree s kind u ∧
      (∀ kind' v, Offends f program.source program.tree s kind' v → kind' = kind ∧ v.span = u.span) ∧
      u ∈ program.tree.nodes ∧ IsPlaceAfter (withoutMark source) (u.span.lo - 1) e.place ∧
      1 ≤ e.place.line ∧ 1 ≤ e.place.column ∧ e.fileName = fileName := by
  obtain ⟨program, d, hread, hrun, rfl, rfl⟩ := of_run_file_transform_error h hkind
  obtain ⟨hsource, hm⟩ := Program.of_ofSource? hread
  obtain ⟨u, hoffends, hspan⟩ := offends_of_runFrom_module (congrArg Prod.fst hrun)
  obtain ⟨hu, hconstruct⟩ := hoffends.mem hm (hranges program hread)
  obtain ⟨hlo, hle, hhi⟩ := (hranges program hread).range u hu hconstruct
  have hsomewhere : d.span.isNowhere = false := by
    rw [hspan, ← Bool.not_eq_true, Span.isNowhere_iff]
    intro hnowhere
    rw [hnowhere] at hlo
    exact absurd hlo (by decide)
  have hplace : IsPlaceAfter (withoutMark source) (u.span.lo - 1)
      (CompileError.atSpan (.transform d.kind) fileName program.source d.span).place := by
    rw [CompileError.atSpan, hsomewhere, hspan, ← hsource]
    exact isPlaceAfter_of hlo (by omega)
  refine ⟨program, u, hread, hoffends, fun kind' v hv => ?_, hu, hplace, ?_, ?_, rfl⟩
  · have hsame : (⟨v.span, kind'⟩ : TransformError) = ⟨u.span, d.kind⟩ :=
      Except.error.inj (hv.run.symm.trans hoffends.run)
    exact ⟨congrArg TransformError.kind hsame, congrArg TransformError.span hsame⟩
  · obtain ⟨start, -, -, -, hline, -⟩ := hplace
    rw [hline]
    exact Nat.le_add_right 1 _
  · obtain ⟨start, -, -, -, -, hcolumn⟩ := hplace
    rw [hcolumn]
    exact Nat.le_add_right 1 _

section
open Sample

def Sample.failing : Transform Unit := ⟨fun _ => return .failure (text "no"), [Target.standard]⟩

theorem hasRanges_host {program : Program} {fileName : Text}
    (h : Program.ofSource? (.ofFileName fileName) hostSource = .ok program) :
    HasRanges program.source program.tree := by
  cases (ofSource?_hostSource _).symm.trans h
  decide +kernel

/-- The failure for the use in the second line of the host is reported where the use begins. -/
theorem transform_error_at_construct_host :
    let e : CompileError := ⟨.transform (.precompile (text "no")), text "a.js", ⟨2, 11⟩⟩
    (failing.file (text "a.js") hostSource).run.run () = (.error e, ()) ∧
    ∃ program u, Program.ofSource? (.ofFileName (text "a.js")) hostSource = .ok program ∧
      Offends failing program.source program.tree () (.precompile (text "no")) u ∧
      (∀ kind' v, Offends failing program.source program.tree () kind' v →
        kind' = .precompile (text "no") ∧ v.span = u.span) ∧
      u ∈ program.tree.nodes ∧ IsPlaceAfter (withoutMark hostSource) (u.span.lo - 1) e.place ∧
      1 ≤ e.place.line ∧ 1 ≤ e.place.column ∧ e.fileName = text "a.js" := by
  intro e
  have hmodule : (failing.module host.source host.tree).runFrom () =
      (.error ⟨⟨57, 65⟩, .precompile (text "no")⟩, ()) := by
    rw [runFrom_module trackImports_host]
    rfl
  have hrun : (failing.file (text "a.js") hostSource).run.run () = (.error e, ()) := by
    rw [run_file (ofSource?_hostSource _), hmodule]
    rfl
  exact ⟨hrun, transform_error_at_construct (fun _ => hasRanges_host) hrun rfl⟩

/-- An import of the wrong form, behind a comment with a character outside of the basic plane. -/
def Sample.astralSource : Text := text "/*😀*/import {x} from 'htmlbars-inline-precompile';"

def Sample.astralImport : Tree :=
  .item (.import false .evaluation) ⟨6, 51⟩
    [.list [.ofPart (.importNamed false) ⟨14, 15⟩ [.ofPart (.name (text "x")) ⟨14, 15⟩ [], .absent]],
      .ofPart (.string Target.standard.source (some (text "'htmlbars-inline-precompile'"))) ⟨22, 50⟩ [],
      .absent]

def Sample.astral : Program where
  source := astralSource
  tree := .node (.module none) ⟨6, 51⟩ [astralImport]
  comments := [⟨.leading, 6, ⟨true, text "😀"⟩⟩]

/-- Columns do not count characters: there are five before the import, all on the first line, and the
error is said to be in column 7. -/
theorem column_not_characters :
    let e : CompileError := ⟨.transform (.importForm Target.standard.requiredSyntax
      (text "import {x} from 'htmlbars-inline-precompile'")), text "a.js", ⟨1, 7⟩⟩
    Program.ofSource? (.ofFileName (text "a.js")) astralSource = .ok astral ∧
    HasRanges astral.source astral.tree ∧
    (transform.file (text "a.js") astralSource).run.run () = (.error e, ()) ∧
    (∀ i < astralImport.span.lo - 1, ¬ EndsLine astralSource i) ∧
    e.place.column ≠ (astralSource.take (astralImport.span.lo - 1)).length + 1 := by
  intro e
  have hread : Program.ofSource? (.ofFileName (text "a.js")) astralSource = .ok astral :=
    eq_ok_of_toOption (by decide +kernel)
  have hranges : HasRanges astral.source astral.tree := by decide +kernel
  have hline : ∀ i < astralImport.span.lo - 1, ¬ EndsLine astralSource i := by decide +kernel
  have hquote : usedSyntax astralSource astralImport =
      text "import {x} from 'htmlbars-inline-precompile'" := by decide +kernel
  have htrack : trackImports transform.targets astral.source astral.tree =
      .error ⟨⟨6, 51⟩, .importForm Target.standard.requiredSyntax
        (usedSyntax astralSource astralImport)⟩ := rfl
  have hrun : (transform.file (text "a.js") astralSource).run.run () = (.error e, ()) := by
    rw [run_file hread, runFrom_module_of_import_error htrack, hquote]
    rfl
  exact ⟨hread, hranges, hrun, hline, by decide⟩

end

end InlineTemplates
