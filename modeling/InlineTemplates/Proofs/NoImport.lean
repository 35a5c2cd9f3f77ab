import InlineTemplates.Proofs.ReadBack
import InlineTemplates.Proofs.Rerun
import InlineTemplates.Proofs.Tracking

/-! # Files without an import of a target

The imports at the top level of a module alone decide whether a run does anything. Whatever else a
file mentions, without such an import it comes back as it is. -/

namespace InlineTemplates

open Script (Tree Program)

variable {σ : Type} {targets : List Target}

theorem bindingsOf_ne_nil {items : List Tree} {item : Tree} (htrack : Trackable targets items)
    (hitem : item ∈ items) (himports : importsFrom targets item = true) :
    bindingsOf targets items ≠ [] := by
  rw [importsFrom_eq_isSome] at himports
  obtain ⟨b, hb⟩ := Option.isSome_iff_exists.mp (htrack.accepted item hitem himports)
  have hmem : b ∈ bindingsOf targets items := List.mem_filterMap.mpr ⟨item, hitem, hb⟩
  exact List.ne_nil_of_mem hmem

theorem isNoop_of_importsFrom {f : Transform σ} {source : Text} {m item result : Tree}
    {done : Summary} {s s' : σ} (hitem : item ∈ m.parts)
    (himports : importsFrom f.targets item = true)
    (h : (f.module source m).runFrom s = (.ok (result, done), s')) : done.isNoop = false := by
  obtain ⟨bindings, rest, calls, htrack, -, -, -, rfl⟩ := of_runFrom_module_ok h
  obtain ⟨htrackable, rfl, -⟩ := trackImports_eq_ok_iff.mp htrack
  have hlength : (bindingsOf f.targets m.parts).length ≠ 0 := by
    intro hzero
    exact bindingsOf_ne_nil htrackable hitem himports (List.length_eq_zero_iff.mp hzero)
  simpa [Summary.isNoop] using hlength

/-- **A file without an import of a target comes back untouched.** For every file that can be read
and every transform: if no item at its top level imports from a target, the file comes back character
for character, the module is left as it is with an empty summary, and the precompiler is neither
called nor does its state change. If some item does, no run of the module that succeeds reports that
there was nothing to do. -/
theorem file_without_import_untouched {f : Transform σ} {fileName source : Text}
    {program : Program} (hread : Program.ofSource? (.ofFileName fileName) source = .ok program)
    (s : σ) :
    ((∀ item ∈ program.tree.parts, importsFrom f.targets item = false) →
      (f.file fileName source).run.run s = (.ok source, s) ∧
      (f.module program.source program.tree).runFrom s = (.ok (program.tree, ⟨0, 0⟩), s) ∧
      (f.recorded.file fileName source).run.run (s, []) = (.ok source, (s, [])) ∧
      (f.recorded.module program.source program.tree).runFrom (s, []) =
        (.ok (program.tree, ⟨0, 0⟩), (s, []))) ∧
    ((∃ item ∈ program.tree.parts, importsFrom f.targets item = true) →
      ∀ result done s', (f.module program.source program.tree).runFrom s =
        (.ok (result, done), s') → done.isNoop = false) := by
  constructor
  · intro hnone
    have hitems : ∀ item ∈ program.tree.parts, importTarget? f.targets item = none := by
      intro item hitem
      have himports := hnone item hitem
      rw [importsFrom_eq_isSome] at himports
      simpa using himports
    have hmodule := runFrom_module_of_none hitems program.source s
    have hrecorded :=
      runFrom_module_of_none (f := f.recorded) hitems program.source (s, ([] : List Text))
    refine ⟨?_, hmodule, ?_, hrecorded⟩
    · rw [run_file hread, hmodule]
      rfl
    · rw [run_file hread, hrecorded]
      rfl
  · rintro ⟨item, hitem, himports⟩ result done s' hrun
    exact isNoop_of_importsFrom hitem himports hrun

section
open Sample

def Sample.untargeted : Transform Unit := ⟨transform.precompiler, []⟩

/-- Without targets the host comes back with its import and its use, and with the standard target
something is done to it. -/
theorem file_without_import_untouched_host :
    Program.ofSource? (.ofFileName (text "a.js")) hostSource = .ok host ∧
    (∀ item ∈ host.tree.parts, importsFrom untargeted.targets item = false) ∧
    (untargeted.file (text "a.js") hostSource).run.run () = (.ok hostSource, ()) ∧
    (untargeted.recorded.module host.source host.tree).runFrom ((), []) =
      (.ok (host.tree, ⟨0, 0⟩), ((), [])) ∧
    (∃ item ∈ host.tree.parts, importsFrom transform.targets item = true) ∧
    ∀ result done s', (transform.module host.source host.tree).runFrom () =
      (.ok (result, done), s') → done.isNoop = false := by
  have hread := ofSource?_hostSource (.ofFileName (text "a.js"))
  have hnone : ∀ item ∈ host.tree.parts, importsFrom untargeted.targets item = false :=
    fun _ _ => rfl
  have hsome : ∃ item ∈ host.tree.parts, importsFrom transform.targets item = true :=
    ⟨writtenImport, List.mem_cons_self, by decide⟩
  obtain ⟨hfile, -, -, hrecorded⟩ :=
    (file_without_import_untouched (f := untargeted) hread ()).1 hnone
  exact ⟨hread, hnone, hfile, hrecorded, hsome,
    (file_without_import_untouched (f := transform) hread ()).2 hsome⟩

end

end InlineTemplates
