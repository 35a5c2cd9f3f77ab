import InlineTemplates.Proofs.Data.Reading
import InlineTemplates.Proofs.Frame

/-! # Data with holes

Where data stands in for the sites of a tree, in arrays and objects and among arguments, other data
can stand as well. Where something is called on a site or a member is taken of it this is not so, and
`null` in its place makes no data. -/

namespace InlineTemplates

open Script (Tree Kind Datum nameTree)
open Script.Parse (membersOf)

namespace Frame

/-- The tree with `null` in each hole, wherever its parts stand. -/
def nulled (f : Frame) : Tree :=
  (f.fill (List.replicate f.holes (.expr .null .nowhere []))).eraseSpans

/-- With `null` in each hole the frame is data. -/
def HoldsData (f : Frame) : Prop := ∃ datum : Datum, datum.Legal ∧ f.nulled = datum.tree

variable {f : Frame} {fs : List Frame} {kind : Kind} {span : Span} {ts us : List Tree}

theorem nulled_node (kind : Kind) (span : Span) (fs : List Frame) :
    (node kind span fs).nulled = .node kind .nowhere (fs.map nulled) := by
  have hall : (fillAll fs (List.replicate (holesOfAll fs) (.expr .null .nowhere []))).map
      Tree.eraseSpans = fs.map nulled := by
    induction fs with
    | nil => rfl
    | cons f fs ih => simp [fillAll, holesOfAll, nulled, ← ih]
  rw [nulled, holes, fill, Tree.eraseSpans_node, hall]

theorem node_of_nulled (hkind : kind ≠ .expr .null) (h : f.nulled = .node kind .nowhere ts) :
    ∃ span fs, f = .node kind span fs ∧ fs.map nulled = ts := by
  cases f with
  | hole => exact absurd (Tree.node.inj h).1.symm hkind
  | node kind' span fs =>
    rw [nulled_node] at h
    obtain ⟨rfl, -, rfl⟩ := Tree.node.inj h
    exact ⟨span, fs, rfl, rfl⟩

theorem holes_of_leaf (hkind : kind ≠ .expr .null) (h : f.nulled = .node kind .nowhere []) :
    f.holes = 0 := by
  obtain ⟨span, fs, rfl, hparts⟩ := node_of_nulled hkind h
  obtain rfl := List.map_eq_nil_iff.mp hparts
  rfl

theorem holes_of_members {members : List Text} {obj : Tree}
    (hobj : ∀ f : Frame, f.nulled = obj → f.holes = 0) (h : f.nulled = membersOf obj members) :
    f.holes = 0 := by
  induction members generalizing obj f with
  | nil => exact hobj f h
  | cons m members ih =>
    have hmember : ∀ f : Frame, f.nulled = .expr .member .nowhere [obj, nameTree m] →
        f.holes = 0 := by
      intro f hf
      obtain ⟨span, fs, rfl, hparts⟩ := node_of_nulled (by decide) hf
      simp only [List.map_eq_cons_iff, List.map_eq_nil_iff] at hparts
      obtain ⟨f₁, _, rfl, hf₁, f₂, _, rfl, hf₂, rfl⟩ := hparts
      have hname : f₂.holes = 0 := holes_of_leaf (by simp) hf₂
      simp [holes, holesOfAll, hobj f₁ hf₁, hname]
    exact ih hmember h

theorem eraseSpans_fill_nil (hf : f.holes = 0) : (f.fill []).eraseSpans = f.nulled := by
  rw [nulled, hf]
  rfl

theorem isData_of_holes {datum : Datum} (hlegal : datum.Legal) (h : f.nulled = datum.tree)
    (hf : f.holes = 0) (hlength : us.length = f.holes) : (f.fill us).IsData := by
  obtain rfl := List.eq_nil_of_length_eq_zero (hlength.trans hf)
  exact ⟨datum, hlegal, (eraseSpans_fill_nil hf).trans h⟩

mutual
theorem isData_fill : ∀ (datum : Datum) (f : Frame) (us : List Tree), datum.Legal →
    f.nulled = datum.tree → us.length = f.holes → (∀ u ∈ us, u.IsData) → (f.fill us).IsData
  | datum, .hole, us, _, _, hlength, hus => by
    obtain ⟨u, rfl⟩ := List.length_eq_one_iff.mp hlength
    exact hus u List.mem_cons_self
  | .null, .node kind span fs, us, hlegal, h, hlength, hus => by
    have hnone := (nulled_node kind span fs).symm.trans h
    obtain rfl := List.map_eq_nil_iff.mp (Tree.node.inj hnone).2.2
    exact isData_of_holes hlegal h rfl hlength
  | .bool b, .node kind span fs, us, hlegal, h, hlength, hus => by
    exact isData_of_holes hlegal h (holes_of_leaf (by simp) h) hlength
  | .string raw value, .node kind span fs, us, hlegal, h, hlength, hus => by
    exact isData_of_holes hlegal h (holes_of_leaf (by simp) h) hlength
  | .dotted n members, f, us, hlegal, h, hlength, hus => by
    exact isData_of_holes hlegal h (holes_of_members (fun f => holes_of_leaf (by simp)) h) hlength
  | .call n members args, .node kind span fs, us, hlegal, h, hlength, hus => by
    obtain ⟨_, _, hnode, hparts⟩ := node_of_nulled (by simp) h
    obtain ⟨rfl, rfl, rfl⟩ := Frame.node.inj hnode
    simp only [List.map_eq_cons_iff, List.map_eq_nil_iff] at hparts
    obtain ⟨callee, _, rfl, hcallee, list, _, rfl, hlist, absent, _, rfl, habsent, rfl⟩ := hparts
    obtain ⟨listSpan, fs, rfl, hargs⟩ := node_of_nulled (by simp) hlist
    have hcalleeHoles := holes_of_members (fun f => holes_of_leaf (by simp)) hcallee
    have habsentHoles := holes_of_leaf (by simp) habsent
    simp only [holes, holesOfAll, hcalleeHoles, habsentHoles] at hlength
    obtain ⟨ds, hds, htrees⟩ := areData_fillAll args fs us hlegal.2 hargs (by omega) hus
    refine ⟨.call n members ds, ⟨hlegal.1, hds⟩, ?_⟩
    have hfilled : fillAll [callee, node .list listSpan fs, absent] us =
        [callee.fill [], .node .list listSpan (fillAll fs us), absent.fill []] := by
      have htake : us.take (holesOfAll fs) = us := List.take_of_length_le (by omega)
      simp [fillAll, fill, holes, hcalleeHoles, habsentHoles, htake]
    rw [Tree.Is, fill, hfilled, Tree.eraseSpans_node, List.map_cons, List.map_cons, List.map_singleton,
      eraseSpans_fill_nil hcalleeHoles, hcallee, Tree.eraseSpans_node, htrees,
      eraseSpans_fill_nil habsentHoles, habsent]
    rfl
  | .array elements, .node kind span fs, us, hlegal, h, hlength, hus => by
    obtain ⟨_, _, hnode, hparts⟩ := node_of_nulled (by simp) h
    obtain ⟨rfl, rfl, rfl⟩ := Frame.node.inj hnode
    obtain ⟨ds, hds, htrees⟩ := areData_fillAll elements fs us hlegal hparts hlength hus
    exact ⟨.array ds, hds, (Tree.eraseSpans_node ..).trans (congrArg _ htrees)⟩
  | .object entries, .node kind span fs, us, hlegal, h, hlength, hus => by
    obtain ⟨_, _, hnode, hparts⟩ := node_of_nulled (by simp) h
    obtain ⟨rfl, rfl, rfl⟩ := Frame.node.inj hnode
    obtain ⟨es, hes, htrees⟩ := entries_fillAll entries fs us hlegal hparts hlength hus
    exact ⟨.object es, hes, (Tree.eraseSpans_node ..).trans (congrArg _ htrees)⟩

theorem areData_fillAll : ∀ (ds : List Datum) (fs : List Frame) (us : List Tree),
    Datum.AllLegal ds → fs.map nulled = Datum.trees ds → us.length = holesOfAll fs →
    (∀ u ∈ us, u.IsData) → Tree.AreData (fillAll fs us)
  | [], fs, us, _, h, _, _ => by
    obtain rfl := List.map_eq_nil_iff.mp h
    exact ⟨[], trivial, rfl⟩
  | d :: ds, fs, us, hlegal, h, hlength, hus => by
    obtain ⟨f, fs, rfl, hf, hfs⟩ := List.map_eq_cons_iff.mp h
    rw [holesOfAll] at hlength
    obtain ⟨d', hd', hfilled⟩ := isData_fill d f (us.take f.holes) hlegal.1 hf
      (by simp; omega) fun u hu => hus u (List.mem_of_mem_take hu)
    obtain ⟨ds', hds', htrees⟩ := areData_fillAll ds fs (us.drop f.holes) hlegal.2 hfs
      (by simp; omega) fun u hu => hus u (List.mem_of_mem_drop hu)
    refine ⟨d' :: ds', ⟨hd', hds'⟩, ?_⟩
    rw [fillAll, List.map_cons, htrees, hfilled, Datum.trees]

theorem entries_fillAll : ∀ (entries : List (Text × Text × Datum)) (fs : List Frame)
    (us : List Tree), Datum.EntriesLegal entries → fs.map nulled = Datum.treesOfEntries entries →
    us.length = holesOfAll fs → (∀ u ∈ us, u.IsData) →
    ∃ es, Datum.EntriesLegal es ∧ (fillAll fs us).map Tree.eraseSpans = Datum.treesOfEntries es
  | [], fs, us, _, h, _, _ => by
    obtain rfl := List.map_eq_nil_iff.mp h
    exact ⟨[], trivial, rfl⟩
  | (raw, value, d) :: more, fs, us, hlegal, h, hlength, hus => by
    obtain ⟨f, fs, rfl, hf, hfs⟩ := List.map_eq_cons_iff.mp h
    obtain ⟨span, parts, rfl, hparts⟩ := node_of_nulled (by simp) hf
    simp only [List.map_eq_cons_iff, List.map_eq_nil_iff] at hparts
    obtain ⟨key, _, rfl, hkey, inner, _, rfl, hinner, rfl⟩ := hparts
    have hkeyHoles := holes_of_leaf (by simp) hkey
    simp only [holes, holesOfAll, hkeyHoles, Nat.zero_add, Nat.add_zero] at hlength
    obtain ⟨d', hd', hfilled⟩ := isData_fill d inner (us.take inner.holes) hlegal.2.1 hinner
      (by simp; omega) fun u hu => hus u (List.mem_of_mem_take hu)
    obtain ⟨es, hes, htrees⟩ := entries_fillAll more fs (us.drop inner.holes) hlegal.2.2 hfs
      (by simp; omega) fun u hu => hus u (List.mem_of_mem_drop hu)
    refine ⟨(raw, value, d') :: es, ⟨hlegal.1, hd', hes⟩, ?_⟩
    have hentry : fillAll (node (.prop .keyValue) span [key, inner] :: fs) us =
        .node (.prop .keyValue) span [key.fill [], inner.fill (us.take inner.holes)] ::
          fillAll fs (us.drop inner.holes) := by
      simp [fillAll, fill, holes, holesOfAll, hkeyHoles, List.take_take]
    rw [hentry, List.map_cons, htrees, Tree.eraseSpans_node, List.map_cons, List.map_singleton,
      eraseSpans_fill_nil hkeyHoles, hkey, hfilled]
    rfl
end

end Frame
end InlineTemplates
