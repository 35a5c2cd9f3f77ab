import InlineTemplates.Proofs.Config.Reading
import Mathlib.Data.List.Lex
import Mathlib.Data.Char

/-! # The targets of a configuration

A configuration has one target for each module of the map that it spells, and they stand in the
order of the modules' names, whichever text spells the map. -/

namespace InlineTemplates.Config

open Json

/-! ## The order of names -/

theorem textLe_iff (s t : Text) : textLe s t = true ↔ s ≤ t := by
  rw [← not_lt]
  induction s generalizing t with
  | nil => simp [textLe]
  | cons a s ih =>
    cases t with
    | nil => simp [textLe]
    | cons b t =>
      rw [textLe, List.cons_lt_cons_iff]
      split
      · next heq => simp [ih, eq_of_beq heq]
      · next hne =>
        have hne : a ≠ b := by simpa using hne
        simp [hne.symm, hne.le_iff_lt]

theorem nodup_eraseDups (names : List Text) : names.eraseDups.Nodup := by
  induction h : names.length using Nat.strong_induction_on generalizing names with
  | h n ih =>
    cases names with
    | nil => simp
    | cons name rest =>
      have hshorter : (rest.filter fun m => !m == name).length < n := by
        have := List.length_filter_le (fun m => !m == name) rest
        simp at h
        omega
      rw [List.eraseDups_cons, List.nodup_cons]
      exact ⟨by simp [List.mem_eraseDups], ih _ hshorter _ rfl⟩

theorem sortedModules_pairwise (entries : List ModuleEntry) :
    (sortedModules entries).Pairwise (· < ·) := by
  have hle : (sortedModules entries).Pairwise fun a b => textLe a b = true := by
    apply List.pairwise_mergeSort
    · intro a b c hab hbc
      rw [textLe_iff] at *
      exact hab.trans hbc
    · intro a b
      simpa [textLe_iff] using le_total a b
  have hne : (sortedModules entries).Pairwise (· ≠ ·) :=
    (List.mergeSort_perm _ _).nodup_iff.2 (nodup_eraseDups _)
  refine hle.imp₂ ?_ hne
  intro a b hab hne
  exact lt_of_le_of_ne ((textLe_iff a b).1 hab) hne

theorem mem_sortedModules {entries : List ModuleEntry} {m : Text} :
    m ∈ sortedModules entries ↔ m ∈ entries.map (·.1) := by
  rw [sortedModules, (List.mergeSort_perm _ _).mem_iff, List.mem_eraseDups]

/-! ## The entry that counts -/

theorem exportOf?_eq_lookup (entries : List ModuleEntry) (m : Text) :
    exportOf? entries m = entries.reverse.lookup m := by
  rw [exportOf?]
  induction entries.reverse with
  | nil => rfl
  | cons e rest ih =>
    rw [List.find?_cons, List.lookup_cons, ← ih, BEq.comm]
    cases m == e.1 <;> rfl

theorem exportOf?_ne_none_iff {entries : List ModuleEntry} {m : Text} :
    exportOf? entries m ≠ none ↔ m ∈ entries.map (·.1) := by
  simp [exportOf?]

theorem sortedModules_congr {entries others : List ModuleEntry}
    (h : ∀ m, exportOf? entries m = exportOf? others m) :
    sortedModules entries = sortedModules others := by
  have hentries := sortedModules_pairwise entries
  have hothers := sortedModules_pairwise others
  refine List.Perm.eq_of_pairwise (fun a b _ _ hab hba => absurd hba hab.asymm) hentries hothers ?_
  rw [List.perm_ext_iff_of_nodup (hentries.imp ne_of_lt) (hothers.imp ne_of_lt)]
  intro m
  rw [mem_sortedModules, mem_sortedModules, ← exportOf?_ne_none_iff, h, exportOf?_ne_none_iff]

def targetsOf (entries : List ModuleEntry) : List Target :=
  (sortedEntries entries).map fun e => ⟨e.1, e.2⟩

theorem targetsOf_congr {entries others : List ModuleEntry}
    (h : ∀ m, exportOf? entries m = exportOf? others m) : targetsOf entries = targetsOf others := by
  simp only [targetsOf, sortedEntries, sortedModules_congr h, h]

theorem mem_targetsOf {entries : List ModuleEntry} {t : Target} :
    t ∈ targetsOf entries ↔ exportOf? entries t.source = some t.tag := by
  have hmem : t ∈ targetsOf entries ↔
      ∃ m, exportOf? entries m ≠ none ∧ ⟨m, (exportOf? entries m).getD []⟩ = t := by
    simp [targetsOf, sortedEntries, mem_sortedModules, exportOf?_ne_none_iff]
  rw [hmem]
  constructor
  · rintro ⟨m, hm, rfl⟩
    obtain ⟨e, he⟩ := Option.ne_none_iff_exists'.1 hm
    simp [he]
  · intro ht
    exact ⟨t.source, by simp [ht], by simp [ht]⟩

theorem sources_targetsOf (entries : List ModuleEntry) :
    (targetsOf entries).map (·.source) = sortedModules entries := by
  simp [targetsOf, sortedEntries, Function.comp_def]

theorem targets_of_filled {entries : List ModuleEntry}
    (h : ∀ m, exportOf? entries m ≠ some []) :
    targets ⟨some entries⟩ = .ok (targetsOf entries) := by
  have hnone : emptyModule? entries = none := by simp [emptyModule?, h]
  simp only [targets, hnone, targetsOf]

/-! ## The targets -/

/-- All texts that spell a map without empty exports have the same targets: one for each module,
with its export, in the order of the names. -/
theorem targets_as_spelled {source : Text} {exports : Text → Option Text}
    (hspells : SpellsMap source exports) (hfilled : ∀ m, exports m ≠ some []) :
    ∃ targets : List Target,
      (∀ t, t ∈ targets ↔ exports t.source = some t.tag) ∧
      (targets.map (·.source)).Pairwise (· < ·) ∧
      ∀ other, SpellsMap other exports →
        ∃ config, ofJson? other = .ok config ∧ config.targets = .ok targets := by
  obtain ⟨entries, -, hentries⟩ := hspells
  simp only [← exportOf?_eq_lookup] at hentries
  refine ⟨targetsOf entries, ?_, ?_, ?_⟩
  · intro t
    rw [hentries, mem_targetsOf]
  · rw [sources_targetsOf]
    exact sortedModules_pairwise entries
  · rintro other ⟨others, hspells, hothers⟩
    simp only [← exportOf?_eq_lookup] at hothers
    refine ⟨⟨some others⟩, ofJson?_of_spells hspells, ?_⟩
    rw [targets_of_filled (fun m => hothers m ▸ hfilled m),
      targetsOf_congr fun m => (hothers m).symm.trans (hentries m)]

/-- A module twice, a character by its code, an export under a key and a key that does not matter. -/
def mixedText : Text :=
  text "\x7b \"v\":\"\", \"modules\": \x7b\"b\":\"a\",\"a\":\x7b\"export\":\"x\"\x7d,\"b\":\"\\u0068\"\x7d\x7d\n"

def mixedEntries : List ModuleEntry :=
  [(text "b", text "a"), (text "a", text "x"), (text "b", text "h")]

theorem spells_mixedText : SpellsEntriesOf mixedText mixedEntries := by
  have hnone := blanks_nil
  have hblank : Blanks [' '] := by simp [Blanks]
  have hline : Blanks ['\n'] := by simp [Blanks]
  have hdigit : ∀ n < 16, SpellsDigit n.digitChar n := fun n h => spellsDigit_digitChar h
  have hcode : SpellsCode _ 'h'.toNat :=
    .digits (hdigit 0 (by decide)) (hdigit 0 (by decide)) (hdigit 6 (by decide))
      (hdigit 8 (by decide))
  have hexport : SpellsExport _ (text "x") := .inr
    ⟨[(text "export", text "x")], .braced (.entries (.one (.entry hnone (spells_quoted _) hnone hnone
      (spells_quoted _)) hnone)), by decide⟩
  have hmodules : SpellsModules _ mixedEntries := .braced (.entries
    (.more (.entry hnone (spells_quoted _) hnone hnone (.inl (spells_quoted _))) hnone
    (.more (.entry hnone (spells_quoted _) hnone hnone hexport) hnone
    (.one (.entry hnone (spells_quoted _) hnone hnone (.inl (.quoted (.cons (.code hcode) .nil))))
      hnone))))
  refine ⟨[], _, ['\n'], _, hnone, .braced (.entries
    (.more (.entry hblank (spells_quoted _) hnone hnone
      (.other (by decide : text "v" ≠ text "modules") (spells_quoted []))) hnone
    (.one (.entry hblank (spells_quoted _) hnone hblank (.modules hmodules)) hnone))),
    hline, ?_, rfl⟩
  decide +kernel

theorem targets_as_spelled_mixed :
    (SpellsMap mixedText (mixedEntries.reverse.lookup ·) ∧
      ∀ m, mixedEntries.reverse.lookup m ≠ some []) ∧
    ∃ targets : List Target,
      (∀ t, t ∈ targets ↔ mixedEntries.reverse.lookup t.source = some t.tag) ∧
      (targets.map (·.source)).Pairwise (· < ·) ∧
      ∀ other, SpellsMap other (mixedEntries.reverse.lookup ·) →
        ∃ config, ofJson? other = .ok config ∧ config.targets = .ok targets := by
  have hspells : SpellsMap mixedText (mixedEntries.reverse.lookup ·) :=
    ⟨mixedEntries, spells_mixedText, fun _ => rfl⟩
  have hfilled : ∀ m, mixedEntries.reverse.lookup m ≠ some [] := by
    intro m
    simp only [mixedEntries, List.reverse_cons, List.reverse_nil, List.nil_append,
      List.cons_append, List.lookup_cons, List.lookup_nil]
    cases m == text "b" <;> cases m == text "a" <;> simp
  exact ⟨⟨hspells, hfilled⟩, targets_as_spelled hspells hfilled⟩

end InlineTemplates.Config
