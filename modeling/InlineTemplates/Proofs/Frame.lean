import InlineTemplates.Proofs.SiteShape
import InlineTemplates.Proofs.Work

/-! # What a transform leaves alone

A module is a frame with its outermost sites in the holes. The transform puts a call into each hole
and leaves the frame as it is. -/

namespace InlineTemplates

open Script (Tree Kind)

variable {σ : Type}

/-! ## Trees with holes -/

/-- A tree with holes. -/
inductive Frame where
  | hole
  | node (kind : Kind) (span : Span) (parts : List Frame)

namespace Frame

mutual
def holes : Frame → Nat
  | hole => 1
  | node _ _ fs => holesOfAll fs

def holesOfAll : List Frame → Nat
  | [] => 0
  | f :: fs => holes f + holesOfAll fs
end

mutual
/-- The frame with a tree in each hole, from left to right. -/
def fill : Frame → List Tree → Tree
  | hole, ts => ts.headD .absent
  | node kind span fs, ts => .node kind span (fillAll fs ts)

def fillAll : List Frame → List Tree → List Tree
  | [], _ => []
  | f :: fs, ts => fill f (ts.take (holes f)) :: fillAll fs (ts.drop (holes f))
end

theorem fillAll_append {f : Frame} {fs : List Frame} {ts us : List Tree}
    (h : ts.length = holes f) : fillAll (f :: fs) (ts ++ us) = fill f ts :: fillAll fs us := by
  rw [fillAll, List.take_left' h, List.drop_left' h]

theorem fillAll_append_frames (fs gs : List Frame) (ts : List Tree) :
    fillAll (fs ++ gs) ts =
      fillAll fs (ts.take (holesOfAll fs)) ++ fillAll gs (ts.drop (holesOfAll fs)) := by
  induction fs generalizing ts with
  | nil => rfl
  | cons f fs ih =>
    rw [List.cons_append, fillAll, fillAll, holesOfAll, ih, List.cons_append, List.take_take,
      List.drop_take, List.drop_drop, Nat.add_sub_cancel_left, Nat.min_eq_left (Nat.le_add_right _ _)]

end Frame

/-! ## The frame of a tree -/

mutual
/-- The tree with a hole for each outermost site. -/
def frameOf (bindings : List Binding) : Tree → Frame
  | .node kind span parts =>
    match siteOf? bindings (.node kind span parts) with
    | some _ => .hole
    | none => .node kind span (frameOfAll bindings parts)

def frameOfAll (bindings : List Binding) : List Tree → List Frame
  | [] => []
  | t :: ts => frameOf bindings t :: frameOfAll bindings ts
end

mutual
/-- The outermost sites of a tree, in the order of a traversal: those that stand in no other. -/
def outermost (bindings : List Binding) : Tree → List Tree
  | .node kind span parts =>
    match siteOf? bindings (.node kind span parts) with
    | some _ => [.node kind span parts]
    | none => outermostOfAll bindings parts

def outermostOfAll (bindings : List Binding) : List Tree → List Tree
  | [] => []
  | t :: ts => outermost bindings t ++ outermostOfAll bindings ts
end

theorem outermostOfAll_eq_flatMap (bindings : List Binding) (ts : List Tree) :
    outermostOfAll bindings ts = ts.flatMap (outermost bindings) := by
  induction ts with
  | nil => rfl
  | cons t ts ih => rw [outermostOfAll, ih, List.flatMap_cons]

theorem outermost_of_site {bindings : List Binding} {t : Tree} {site : Site}
    (h : siteOf? bindings t = some site) : outermost bindings t = [t] := by
  cases t with
  | node kind span parts => rw [outermost, h]

theorem outermost_of_none {bindings : List Binding} {kind : Kind} {span : Span} {parts : List Tree}
    (h : siteOf? bindings (.node kind span parts) = none) :
    outermost bindings (.node kind span parts) = parts.flatMap (outermost bindings) := by
  rw [outermost, h]
  exact outermostOfAll_eq_flatMap bindings parts

theorem frameOfAll_eq_map (bindings : List Binding) (ts : List Tree) :
    frameOfAll bindings ts = ts.map (frameOf bindings) := by
  induction ts with
  | nil => rfl
  | cons t ts ih => rw [frameOfAll, ih, List.map_cons]

theorem frameOf_of_none {bindings : List Binding} {kind : Kind} {span : Span} {parts : List Tree}
    (h : siteOf? bindings (.node kind span parts) = none) :
    frameOf bindings (.node kind span parts) = .node kind span (parts.map (frameOf bindings)) := by
  rw [frameOf, h]
  exact congrArg (Frame.node kind span) (frameOfAll_eq_map bindings parts)

def outermostSites (bindings : List Binding) (t : Tree) : List Site :=
  (outermost bindings t).filterMap (siteOf? bindings)

def outermostSitesOfAll (bindings : List Binding) (ts : List Tree) : List Site :=
  (outermostOfAll bindings ts).filterMap (siteOf? bindings)

section
variable {bindings : List Binding} {kind : Kind} {span : Span} {parts : List Tree}

theorem outermostSites_of_site {site : Site}
    (h : siteOf? bindings (.node kind span parts) = some site) :
    outermostSites bindings (.node kind span parts) = [site] := by
  rw [outermostSites, outermost, h]
  simp [h]

theorem outermostSites_of_none (h : siteOf? bindings (.node kind span parts) = none) :
    outermostSites bindings (.node kind span parts) = outermostSitesOfAll bindings parts := by
  rw [outermostSites, outermost, h]
  rfl

theorem outermostSites_eq_flatMap (h : siteOf? bindings (.node kind span parts) = none) :
    outermostSites bindings (.node kind span parts) =
      parts.flatMap (outermostSites bindings) := by
  rw [outermostSites, outermost_of_none h, List.filterMap_flatMap]
  rfl

theorem outermostSitesOfAll_cons (t : Tree) (ts : List Tree) :
    outermostSitesOfAll bindings (t :: ts) =
      outermostSites bindings t ++ outermostSitesOfAll bindings ts := by
  rw [outermostSitesOfAll, outermostOfAll, List.filterMap_append]
  rfl

end

mutual
theorem holes_frameOf (bindings : List Binding) :
    ∀ t : Tree, (frameOf bindings t).holes = (outermost bindings t).length
  | .node kind span parts => by
    cases h : siteOf? bindings (.node kind span parts) with
    | some site => rw [frameOf, outermost, h]; rfl
    | none =>
      rw [frameOf, outermost, h]
      exact holesOfAll_frameOfAll bindings parts

theorem holesOfAll_frameOfAll (bindings : List Binding) :
    ∀ ts : List Tree,
      Frame.holesOfAll (frameOfAll bindings ts) = (outermostOfAll bindings ts).length
  | [] => rfl
  | t :: ts => by
    rw [frameOfAll, Frame.holesOfAll, outermostOfAll, List.length_append, holes_frameOf bindings t,
      holesOfAll_frameOfAll bindings ts]
end

mutual
theorem fill_outermost (bindings : List Binding) :
    ∀ t : Tree, (frameOf bindings t).fill (outermost bindings t) = t
  | .node kind span parts => by
    cases h : siteOf? bindings (.node kind span parts) with
    | some site => rw [frameOf, outermost, h]; rfl
    | none =>
      rw [frameOf, outermost, h]
      exact congrArg (Script.Tree.node kind span) (fillAll_outermostOfAll bindings parts)

theorem fillAll_outermostOfAll (bindings : List Binding) :
    ∀ ts : List Tree, Frame.fillAll (frameOfAll bindings ts) (outermostOfAll bindings ts) = ts
  | [] => rfl
  | t :: ts => by
    rw [frameOfAll, outermostOfAll, Frame.fillAll_append (holes_frameOf bindings t).symm,
      fill_outermost bindings t, fillAll_outermostOfAll bindings ts]
end

mutual
theorem siteOf?_of_mem_outermost {bindings : List Binding} {u : Tree} :
    ∀ {t : Tree}, u ∈ outermost bindings t → ∃ site, siteOf? bindings u = some site
  | .node kind span parts, hu => by
    cases h : siteOf? bindings (.node kind span parts) with
    | some site =>
      rw [outermost, h, List.mem_singleton] at hu
      exact ⟨site, hu ▸ h⟩
    | none =>
      rw [outermost, h] at hu
      exact siteOf?_of_mem_outermostOfAll hu

theorem siteOf?_of_mem_outermostOfAll {bindings : List Binding} {u : Tree} :
    ∀ {ts : List Tree}, u ∈ outermostOfAll bindings ts → ∃ site, siteOf? bindings u = some site
  | t :: ts, hu => by
    rw [outermostOfAll, List.mem_append] at hu
    rcases hu with hu | hu
    · exact siteOf?_of_mem_outermost hu
    · exact siteOf?_of_mem_outermostOfAll hu
end

theorem mem_nodes_of_mem_outermost {bindings : List Binding} {t u : Tree}
    (hu : u ∈ outermost bindings t) : u ∈ t.nodes := by
  induction t using Tree.induct with
  | node kind span parts ih =>
    cases h : siteOf? bindings (.node kind span parts) with
    | some site =>
      rw [outermost_of_site h, List.mem_singleton] at hu
      rw [hu]
      exact Tree.self_mem_nodes _
    | none =>
      rw [outermost_of_none h] at hu
      obtain ⟨p, hp, hu⟩ := List.mem_flatMap.mp hu
      exact Tree.mem_nodes_node.mpr (.inr ⟨p, hp, ih p hp hu⟩)

theorem isWellFormed_of_mem_outermost {bindings : List Binding} {t u : Tree}
    (hwell : t.isWellFormed = true) (hu : u ∈ outermost bindings t) : u.isWellFormed = true :=
  Tree.isWellFormed_of_mem_nodes hwell (mem_nodes_of_mem_outermost hu)

theorem span_of_filterMap_siteOf? {bindings : List Binding} {us : List Tree}
    (h : ∀ u ∈ us, ∃ site, siteOf? bindings u = some site) :
    (us.filterMap (siteOf? bindings)).map Site.span = us.map Tree.span := by
  induction us with
  | nil => rfl
  | cons u us ih =>
    obtain ⟨site, hsite⟩ := h u List.mem_cons_self
    have hothers := ih fun v hv => h v (List.mem_cons_of_mem _ hv)
    rw [List.filterMap_cons_some hsite, List.map_cons, List.map_cons, span_of_siteOf? hsite, hothers]

theorem span_of_outermostSites (bindings : List Binding) (t : Tree) :
    (outermostSites bindings t).map Site.span = (outermost bindings t).map Tree.span :=
  span_of_filterMap_siteOf? fun _ => siteOf?_of_mem_outermost

theorem length_outermostSites (bindings : List Binding) (t : Tree) :
    (outermostSites bindings t).length = (outermost bindings t).length := by
  simpa using congrArg List.length (span_of_outermostSites bindings t)

/-! ## Expansion fills the frame -/

def expandSites (p : Precompiler σ) (sites : List Site) : Work σ (List Tree) :=
  sites.mapM (Site.expand p)

theorem expandSites_append (p : Precompiler σ) (xs ys : List Site) :
    expandSites p (xs ++ ys) = do
      return (← expandSites p xs) ++ (← expandSites p ys) :=
  List.mapM_append

theorem expandSites_cons (p : Precompiler σ) (site : Site) (later : List Site) :
    expandSites p (site :: later) = do
      return (← site.expand p) :: (← expandSites p later) :=
  List.mapM_cons

theorem expandSites_singleton (p : Precompiler σ) (site : Site) :
    expandSites p [site] = do return [← site.expand p] := by
  simp [expandSites]

/-- What a site asks for and where: all that its expansion goes by. -/
def Site.request (site : Site) : Span × Except TransformError Text := (site.span, site.template?)

theorem expandSites_congr {p : Precompiler σ} : ∀ {xs ys : List Site},
    xs.map Site.request = ys.map Site.request → expandSites p xs = expandSites p ys
  | [], [], _ => rfl
  | x :: xs, y :: ys, h => by
    obtain ⟨hfirst, hothers⟩ := List.cons_eq_cons.mp h
    obtain ⟨hspan, hread⟩ := Prod.mk.inj hfirst
    have hexpand : x.expand p = y.expand p := by rw [Site.expand, Site.expand, hspan, hread]
    rw [expandSites_cons, expandSites_cons, hexpand, expandSites_congr hothers]

theorem length_of_runFrom_expandSites {p : Precompiler σ} :
    ∀ {sites : List Site} {calls : List Tree} {s s' : σ},
      (expandSites p sites).runFrom s = (.ok calls, s') → calls.length = sites.length
  | [], calls, s, s', h => by
    cases h
    rfl
  | site :: later, calls, s, s', h => by
    rw [expandSites_cons] at h
    obtain ⟨call, s₁, -, hrest⟩ := Work.of_runFrom_bind_ok h
    obtain ⟨others, s₂, hothers, hcalls⟩ := Work.of_runFrom_bind_ok hrest
    cases hcalls
    simpa using length_of_runFrom_expandSites hothers

mutual
/-- Expansion expands the outermost sites in their order and puts the calls into the frame. -/
theorem runFrom_expand (bindings : List Binding) (p : Precompiler σ) :
    ∀ (t : Tree) (s : σ), (expand bindings p t).runFrom s =
      match (expandSites p (outermostSites bindings t)).runFrom s with
      | (.ok calls, s') => (.ok ⟨(frameOf bindings t).fill calls, calls.length⟩, s')
      | (.error e, s') => (.error e, s')
  | .node kind span parts, s => by
    cases h : siteOf? bindings (.node kind span parts) with
    | some site =>
      rw [expand, frameOf, h, outermostSites_of_site h, expandSites_singleton]
      simp only [Work.runFrom_bind]
      cases hrun : (site.expand p).runFrom s with
      | mk r s' => cases r <;> rfl
    | none =>
      rw [expand, frameOf, h, outermostSites_of_none h]
      simp only [Work.runFrom_bind, runFrom_expandAll bindings p parts s]
      cases hrun : (expandSites p (outermostSitesOfAll bindings parts)).runFrom s with
      | mk r s' => cases r <;> rfl

theorem runFrom_expandAll (bindings : List Binding) (p : Precompiler σ) :
    ∀ (ts : List Tree) (s : σ), (expandAll bindings p ts).runFrom s =
      match (expandSites p (outermostSitesOfAll bindings ts)).runFrom s with
      | (.ok calls, s') => (.ok ⟨Frame.fillAll (frameOfAll bindings ts) calls, calls.length⟩, s')
      | (.error e, s') => (.error e, s')
  | [], s => rfl
  | t :: ts, s => by
    rw [expandAll, outermostSitesOfAll_cons, expandSites_append, frameOfAll]
    simp only [Work.runFrom_bind, runFrom_expand bindings p t s]
    cases hfirst : (expandSites p (outermostSites bindings t)).runFrom s with
    | mk r s₁ =>
      cases r with
      | error e => rfl
      | ok calls =>
        have hlen : calls.length = (frameOf bindings t).holes := by
          rw [length_of_runFrom_expandSites hfirst, length_outermostSites, holes_frameOf]
        simp only [runFrom_expandAll bindings p ts s₁]
        cases hothers : (expandSites p (outermostSitesOfAll bindings ts)).runFrom s₁ with
        | mk r s₂ =>
          cases r with
          | error e => rfl
          | ok others => simp [Frame.fillAll_append hlen]
end

end InlineTemplates
