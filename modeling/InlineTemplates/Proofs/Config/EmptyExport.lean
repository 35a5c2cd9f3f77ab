import InlineTemplates.Proofs.Config.Slots
import InlineTemplates.Proofs.Config.Targets
import InlineTemplates.Setup

/-! # Configurations with empty exports

A configuration with an empty export is refused. Of several modules with one the error names the
first in the order of the table, which is not that of the names: it depends on the order of the
entries if modules share the first slot of their hashes. -/

namespace InlineTemplates.Config

open Json Table

/-! ## The module that an error names -/

/-- The text is refused because of a module's empty export, also where a transform is set up. -/
def Refuses (source m : Text) : Prop :=
  ∃ config, ofJson? source = .ok config ∧ config.targets = .error (.emptyExport m) ∧
    ∀ {σ : Type} (p : Precompiler σ),
      Transform.ofConfig? (some p) config = .error (.emptyExport m)

theorem Refuses.unique {source m m' : Text} (h : Refuses source m) (h' : Refuses source m') :
    m = m' := by
  obtain ⟨config, hconfig, htargets, -⟩ := h
  obtain ⟨config', hconfig', htargets', -⟩ := h'
  rw [hconfig] at hconfig'
  cases hconfig'
  rw [htargets] at htargets'
  cases htargets'
  rfl

def names (entries : List ModuleEntry) : List Text := entries.map (·.1)

theorem SpellsBy.refuses_of_first {source m : Text} {entries : List ModuleEntry}
    {exports : Text → Option Text} (h : SpellsBy source entries exports)
    (hfirst : ((tableOrder (names entries)).find? fun m => exports m == some []) = some m) :
    Refuses source m := by
  have hempty : emptyModule? entries = some m := by
    rw [← hfirst]
    simp only [emptyModule?, names, exportOf?_eq_lookup, h.2]
  have htargets : Config.targets ⟨some entries⟩ = .error (.emptyExport m) := by
    simp only [Config.targets, hempty]
  refine ⟨⟨some entries⟩, ofJson?_of_spells h.1, htargets, fun p => ?_⟩
  simp only [Transform.ofConfig?, htargets]
  rfl

theorem SpellsBy.mem_names_iff {source m : Text} {entries : List ModuleEntry}
    {exports : Text → Option Text} (h : SpellsBy source entries exports) :
    m ∈ names entries ↔ exports m ≠ none := by
  rw [h.2, ← exportOf?_eq_lookup, exportOf?_ne_none_iff]
  rfl

theorem SpellsBy.exists_first {source : Text} {entries : List ModuleEntry}
    {exports : Text → Option Text} (h : SpellsBy source entries exports)
    (hempty : ∃ m, exports m = some []) :
    ∃ m, exports m = some [] ∧
      ((tableOrder (names entries)).find? fun m => exports m == some []) = some m := by
  obtain ⟨m, hm⟩ := hempty
  have hmem : m ∈ tableOrder (names entries) :=
    mem_tableOrder.2 (h.mem_names_iff.2 (by simp [hm]))
  have hfound : ((tableOrder (names entries)).find? fun m => exports m == some []).isSome := by
    rw [List.find?_isSome]
    exact ⟨m, hmem, by simp [hm]⟩
  obtain ⟨first, hfirst⟩ := Option.isSome_iff_exists.1 hfound
  have hexport := List.find?_some hfirst
  exact ⟨first, by simpa using hexport, hfirst⟩

/-! ## Modules that do not meet -/

def slotCount (entries : List ModuleEntry) : Nat := (tableOf (names entries)).slots.size

theorem first_of_apart {keys : List Text} {empty : Text → Bool} {m other : Text}
    (hapart : Apart (tableOf keys).slots.size keys)
    (hfirst : (tableOrder keys).find? empty = some m) (hother : other ∈ keys)
    (hempty : empty other = true) :
    home (tableOf keys).slots.size m ≤ home (tableOf keys).slots.size other := by
  have hpairwise := tableOrder_pairwise hapart
  obtain ⟨-, before, behind, horder, hbefore⟩ := List.find?_eq_some_iff_append.1 hfirst
  have hmem := mem_tableOrder.2 hother
  rw [horder] at hpairwise hmem
  rcases List.mem_append.1 hmem with hmem | hmem
  · have hnot := hbefore other hmem
    simp [hempty] at hnot
  · rcases List.mem_cons.1 hmem with rfl | hmem
    · exact Nat.le_refl _
    · exact Nat.le_of_lt ((List.pairwise_cons.1 (List.pairwise_append.1 hpairwise).2.1).1 other hmem)

theorem slotCount_eq {source other : Text} {entries others : List ModuleEntry}
    {exports : Text → Option Text} (h : SpellsBy source entries exports)
    (h' : SpellsBy other others exports) (hnodup : (names entries).Nodup)
    (hnodup' : (names others).Nodup) : slotCount entries = slotCount others := by
  refine size_tableOf_congr hnodup hnodup' (List.Perm.length_eq ?_)
  rw [List.perm_ext_iff_of_nodup hnodup hnodup']
  exact fun m => h.mem_names_iff.trans h'.mem_names_iff.symm

theorem SpellsBy.refused_alike {source other : Text} {entries others : List ModuleEntry}
    {exports : Text → Option Text} (h : SpellsBy source entries exports)
    (h' : SpellsBy other others exports) (hempty : ∃ m, exports m = some [])
    (hsize : slotCount entries = slotCount others)
    (hapart : Apart (slotCount entries) (names entries)) :
    ∃ m, Refuses source m ∧ Refuses other m := by
  obtain ⟨m, hm, hfirst⟩ := h.exists_first hempty
  obtain ⟨m', hm', hfirst'⟩ := h'.exists_first hempty
  have hmem : ∀ {n}, n ∈ names others ↔ n ∈ names entries :=
    h'.mem_names_iff.trans h.mem_names_iff.symm
  have hmmem : m ∈ names entries := h.mem_names_iff.2 (by simp [hm])
  have hmmem' : m' ∈ names entries := h.mem_names_iff.2 (by simp [hm'])
  have hapart' : Apart (slotCount others) (names others) := by
    rw [← hsize]
    exact fun a ha b hb => hapart a (hmem.1 ha) b (hmem.1 hb)
  have hle : home (slotCount entries) m ≤ home (slotCount entries) m' :=
    first_of_apart hapart hfirst hmmem' (by simp [hm'])
  have hge : home (slotCount others) m' ≤ home (slotCount others) m :=
    first_of_apart hapart' hfirst' (hmem.2 hmmem) (by simp [hm])
  rw [← hsize] at hge
  obtain rfl := hapart m hmmem m' hmmem' (Nat.le_antisymm hle hge)
  exact ⟨m, h.refuses_of_first hfirst, h'.refuses_of_first hfirst'⟩

/-! ## Two modules -/

/-- All texts of the map are refused for the same module. -/
def RefusedAlike (exports : Text → Option Text) : Prop :=
  ∀ source other, SpellsMap source exports → SpellsMap other exports →
    ∃ m, Refuses source m ∧ Refuses other m

def bothEmpty (x y m : Text) : Option Text := if m = x ∨ m = y then some [] else none

theorem bothEmpty_ne_none_iff {x y m : Text} : bothEmpty x y m ≠ none ↔ m = x ∨ m = y := by
  unfold bothEmpty
  split <;> simp_all

theorem spellsBy_bothEmpty (x y : Text) :
    SpellsBy (written [(x, []), (y, [])]) [(x, []), (y, [])] (bothEmpty x y) := by
  refine ⟨spells_written _, fun m => ?_⟩
  change bothEmpty x y m = List.lookup m [(y, []), (x, [])]
  rw [bothEmpty, List.lookup_cons, List.lookup_cons, List.lookup_nil]
  cases hy : m == y <;> cases hx : m == x <;> simp_all

theorem bothEmpty_comm (x y : Text) : bothEmpty x y = bothEmpty y x := by
  funext m
  simp only [bothEmpty, or_comm]

theorem refuses_bothEmpty {x y : Text} (hne : x ≠ y) (h : home 4 x = home 4 y) :
    Refuses (written [(x, []), (y, [])]) (if home 4 x = 3 then y else x) := by
  refine (spellsBy_bothEmpty x y).refuses_of_first ?_
  rw [show names [(x, []), (y, [])] = [x, y] from rfl, tableOrder_two hne h]
  split <;> simp [bothEmpty]

theorem refusedAlike_bothEmpty_iff {x y : Text} (hne : x ≠ y) :
    RefusedAlike (bothEmpty x y) ↔ home 4 x ≠ home 4 y := by
  constructor
  · -- The text with the entries the other way round names the other module.
    intro halike hhome
    have hxy := spellsBy_bothEmpty x y
    have hyx := spellsBy_bothEmpty y x
    rw [bothEmpty_comm] at hyx
    obtain ⟨m, hm, hm'⟩ := halike _ _ ⟨_, hxy⟩ ⟨_, hyx⟩
    have hfirst := hm.unique (refuses_bothEmpty hne hhome)
    have hsecond := hm'.unique (refuses_bothEmpty hne.symm hhome.symm)
    rw [hfirst, hhome] at hsecond
    split at hsecond
    · exact hne hsecond.symm
    · exact hne hsecond
  · rintro hhome source other ⟨entries, h⟩ ⟨others, h'⟩
    have hsize : ∀ {source entries}, SpellsBy source entries (bothEmpty x y) →
        slotCount entries = 4 := by
      intro source entries h
      have hmem : ∀ m, m ∈ names entries ↔ m = x ∨ m = y := fun m =>
        h.mem_names_iff.trans bothEmpty_ne_none_iff
      exact size_tableOf_two (List.ne_nil_of_mem ((hmem x).2 (.inl rfl))) fun m hm => (hmem m).1 hm
    refine h.refused_alike h' ⟨x, by simp [bothEmpty]⟩ ((hsize h).trans (hsize h').symm) ?_
    rw [hsize h]
    intro a ha b hb heq
    rcases bothEmpty_ne_none_iff.1 (h.mem_names_iff.1 ha) with rfl | rfl <;>
      rcases bothEmpty_ne_none_iff.1 (h.mem_names_iff.1 hb) with rfl | rfl
    · rfl
    · exact absurd heq hhome
    · exact absurd heq.symm hhome
    · rfl

/-! ## The error of a configuration -/

/-- A map with an empty export is refused for a module with one, the first of them in the table. All
its texts are refused for the same module if it has only one such module, or if the modules are
apart in tables of as many slots, as texts without repetition have them. Of two modules this is
exact. -/
theorem empty_export_refused {exports : Text → Option Text} (hempty : ∃ m, exports m = some []) :
    (∀ source entries, SpellsBy source entries exports →
      ∃ m, exports m = some [] ∧ Refuses source m ∧
        ((tableOrder (names entries)).find? fun m => exports m == some []) = some m) ∧
    ((∃! m, exports m = some []) → RefusedAlike exports) ∧
    (∀ source other entries others, SpellsBy source entries exports →
      SpellsBy other others exports → Apart (slotCount entries) (names entries) →
      (slotCount entries = slotCount others ∨ (names entries).Nodup ∧ (names others).Nodup) →
      ∃ m, Refuses source m ∧ Refuses other m) ∧
    ∀ x y, x ≠ y → exports = bothEmpty x y → (RefusedAlike exports ↔ home 4 x ≠ home 4 y) := by
  have hfirst : ∀ source entries, SpellsBy source entries exports →
      ∃ m, exports m = some [] ∧ Refuses source m ∧
        ((tableOrder (names entries)).find? fun m => exports m == some []) = some m := by
    intro source entries h
    obtain ⟨m, hm, hfirst⟩ := h.exists_first hempty
    exact ⟨m, hm, h.refuses_of_first hfirst, hfirst⟩
  refine ⟨hfirst, ?_, ?_, ?_⟩
  · rintro ⟨only, -, honly⟩ source other ⟨entries, h⟩ ⟨others, h'⟩
    obtain ⟨m, hm, hsource, -⟩ := hfirst source entries h
    obtain ⟨m', hm', hother, -⟩ := hfirst other others h'
    rw [honly m' hm'] at hother
    rw [honly m hm] at hsource
    exact ⟨only, hsource, hother⟩
  · intro source other entries others h h' hapart hsize
    refine h.refused_alike h' hempty ?_ hapart
    exact hsize.elim id fun hnodup => slotCount_eq h h' hnodup.1 hnodup.2
  · rintro x y hne rfl
    exact refusedAlike_bothEmpty_iff hne

theorem empty_export_refused_apart :
    (∃ m, bothEmpty (text "a") (text "b") m = some []) ∧
    RefusedAlike (bothEmpty (text "a") (text "b")) := by
  have hempty : ∃ m, bothEmpty (text "a") (text "b") m = some [] := ⟨text "a", by decide⟩
  refine ⟨hempty, ?_⟩
  have hiff := (empty_export_refused hempty).2.2.2 (text "a") (text "b") (by decide) rfl
  exact hiff.2 (by decide +kernel)

/-- `a` and `c` have the same first slot, and the error names the one that is written last. -/
theorem empty_export_by_order :
    let first := text "\x7b\"modules\":\x7b\"a\":\"\",\"c\":\"\"\x7d\x7d"
    let second := text "\x7b\"modules\":\x7b\"c\":\"\",\"a\":\"\"\x7d\x7d"
    SpellsMap first (bothEmpty (text "a") (text "c")) ∧
    SpellsMap second (bothEmpty (text "a") (text "c")) ∧
    Refuses first (text "c") ∧ Refuses second (text "a") ∧
    ¬ RefusedAlike (bothEmpty (text "a") (text "c")) := by
  have hfirst : written [(text "a", []), (text "c", [])] =
      text "\x7b\"modules\":\x7b\"a\":\"\",\"c\":\"\"\x7d\x7d" := by decide +kernel
  have hsecond : written [(text "c", []), (text "a", [])] =
      text "\x7b\"modules\":\x7b\"c\":\"\",\"a\":\"\"\x7d\x7d" := by decide +kernel
  have hhome : home 4 (text "a") = 3 ∧ home 4 (text "c") = 3 := by decide +kernel
  have hne : text "a" ≠ text "c" := by decide
  have hsame := hhome.1.trans hhome.2.symm
  dsimp only
  rw [← hfirst, ← hsecond]
  refine ⟨⟨_, spellsBy_bothEmpty _ _⟩, ⟨_, bothEmpty_comm _ _ ▸ spellsBy_bothEmpty _ _⟩, ?_, ?_, ?_⟩
  · simpa only [hhome.1, if_true] using refuses_bothEmpty hne hsame
  · simpa only [hhome.2, if_true] using refuses_bothEmpty hne.symm hsame.symm
  · exact fun halike => (refusedAlike_bothEmpty_iff hne).1 halike hsame

end InlineTemplates.Config
