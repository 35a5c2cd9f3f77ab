import InlineTemplates.Proofs.Lexing.Items
import InlineTemplates.Proofs.Printing.Spelled
import InlineTemplates.Proofs.ReadBack

/-! # Modules whose items are read back

Where each item alone is read, in print, as this item, whatever stands behind it, the module is read
as it was printed. -/

namespace InlineTemplates

open Script (Tree Dialect Style Doc Comments Comment Margin Gap ReadsItem ReadsItems ReadsModule Begins)
open Script.Doc (Opens unprinted)

/-- Comments that end where they say, at places of a source. -/
structure Script.Comments.Legal (cs : Comments) : Prop where
  closed : cs.Closed
  placed : ∀ c ∈ cs, c.position ≠ 0

def Script.Style.items (s : Style) (ts : List Tree) : Doc := (s.printAll ts).flatMap s.moduleItem

def firstLine : Option Text → Doc
  | some content => [.text ('#' :: '!' :: content), .newline]
  | none => []

variable {d : Dialect} {s : Style} {cs : Comments} {ts : List Tree} {hashbang : Option Text}
  {lo : Nat} {rest : Doc}

theorem Script.Comments.Legal.subset {cs' : Comments} (h : cs.Legal) (hcs : cs' ⊆ cs) : cs'.Legal :=
  ⟨fun c hc => h.closed c (hcs hc), fun c hc => h.placed c (hcs hc)⟩

theorem unprinted_subset (cs : Comments) (e : Doc) : unprinted cs e ⊆ cs :=
  fun _ hc => List.mem_of_mem_filter hc

/-! ## Byte order marks -/

def isUnmarked (ch : Char) : Bool := ch != '\uFEFF'

theorem withoutMark_of_begins {x : Text} (h : Begins isUnmarked x) : withoutMark x = x := by
  cases x with
  | nil => rfl
  | cons ch x => exact withoutMark_cons ch x (by simpa [Begins, isUnmarked] using h)

theorem begins_text {ch : Char} (hch : isUnmarked ch = true) (w : Text) (m : Margin) (rest : Doc) :
    Begins isUnmarked (Doc.layout m (.text (ch :: w) :: rest)) := by
  obtain ⟨n, hlayout⟩ := Doc.layout_text m (List.cons_ne_nil ch w)
  rw [hlayout]
  cases n with
  | zero => exact hch
  | succ n => rfl

theorem begins_comments (side : Script.CommentSide) (position : Nat) (apart : Bool)
    (hrest : ∀ m, Begins isUnmarked (Doc.layout m rest)) (m : Margin) :
    Begins isUnmarked
      (Doc.layout m (Doc.withComments cs [.comments side position apart] ++ rest)) := by
  have hdoc : Doc.withComments cs [.comments side position apart] =
      (cs.on side position).flatMap (Comment.doc apart) := List.append_nil _
  rw [hdoc]
  cases cs.on side position with
  | nil => exact hrest m
  | cons c comments =>
    obtain ⟨block, content⟩ := c
    cases apart <;> cases block
    all_goals exact begins_text (by decide) _ m _

/-! ## Items -/

/-- On a page with some of the comments, what is printed for the item is read as this item, whatever
stands behind it. -/
structure ReadsInPrint (d : Dialect) (s : Style) (t : Tree) : Prop where
  unmarked : Opens isUnmarked (s.moduleItem (s.print t))
  reads (cs : Comments) (hcs : cs ⊆ s.comments) (m : Margin) : ∃ m' gap, Gap gap ∧
    ∀ gap₀ rest, Gap gap₀ →
      ReadsItem d (gap₀ ++ Doc.layout m ((s.moduleItem (s.print t)).withComments cs ++ rest))
        t.eraseSpans (gap ++ Doc.layout m' rest)

theorem items_cons (s : Style) (t : Tree) (ts : List Tree) :
    s.items (t :: ts) = s.moduleItem (s.print t) ++ s.items ts := by
  rw [Style.items, Style.printAll, List.flatMap_cons]
  rfl

theorem readsItems_items (hitems : ∀ t ∈ ts, ReadsInPrint d s t) (hcs : cs ⊆ s.comments) (m : Margin)
    {gap₀ : Text} (hgap₀ : Gap gap₀) : ∃ m' gap, Gap gap ∧ ∀ rest,
      ReadsItems d (gap₀ ++ Doc.layout m ((s.items ts).withComments cs ++ rest))
        (ts.map Tree.eraseSpans) (gap ++ Doc.layout m' rest) := by
  induction ts generalizing cs m gap₀ with
  | nil => exact ⟨m, gap₀, hgap₀, fun rest => rfl⟩
  | cons t ts ih =>
    obtain ⟨m₁, gap₁, hgap₁, hitem⟩ := (hitems t List.mem_cons_self).reads cs hcs m
    obtain ⟨m', gap, hgap, hothers⟩ := ih (fun u hu => hitems u (List.mem_cons_of_mem _ hu))
      (List.Subset.trans (unprinted_subset cs (s.moduleItem (s.print t))) hcs) m₁ hgap₁
    refine ⟨m', gap, hgap, fun rest => ⟨_, ?_, hothers rest⟩⟩
    rw [items_cons, Doc.withComments_append, List.append_assoc]
    exact hitem gap₀ _ hgap₀

/-! ## The first line -/

/-- The first line that names an interpreter is one line, and no comment is printed before it. -/
def LegalFirstLine (hashbang : Option Text) (lo : Nat) (cs : Comments) : Prop :=
  ∀ content, hashbang = some content →
    (∀ ch ∈ content, Text.isLineEnd ch = false) ∧ ∀ c ∈ cs, c.place ≠ (.leading, lo)

theorem withComments_firstLine {content : Text} (hnone : ∀ c ∈ cs, c.place ≠ (.leading, lo)) :
    (Doc.before lo ++ firstLine (some content)).withComments cs = firstLine (some content) := by
  have hempty : (Doc.before lo).withComments cs = [] := by
    rw [Doc.before, Doc.withComments, Comments.on_eq_nil hnone]
    rfl
  rw [Doc.withComments_append, hempty]
  rfl

theorem readsModule_firstLine (hclosed : cs.Closed) (hline : LegalFirstLine hashbang lo cs) :
    ∃ m gap, Gap gap ∧ ∀ rest,
      ReadsModule d (Doc.layout {} ((Doc.before lo ++ firstLine hashbang).withComments cs ++ rest))
        hashbang [] (gap ++ Doc.layout m rest) := by
  cases hashbang with
  | none =>
    obtain ⟨m, gap, hgap, hpage⟩ := Doc.isGap_comments .leading lo false cs hclosed {}
    exact ⟨m, gap, hgap, hpage⟩
  | some content =>
    obtain ⟨hcontent, hnone⟩ := hline content rfl
    refine ⟨{}, ['\n'], .of_all (by decide), fun rest => ?_⟩
    rw [withComments_firstLine hnone]
    exact ⟨_, rfl, hcontent, rfl, rfl⟩

theorem begins_firstLine (hline : LegalFirstLine hashbang lo cs)
    (hrest : ∀ m, Begins isUnmarked (Doc.layout m rest)) :
    Begins isUnmarked
      (Doc.layout {} ((Doc.before lo ++ firstLine hashbang).withComments cs ++ rest)) := by
  cases hashbang with
  | none => exact begins_comments .leading lo false hrest {}
  | some content =>
    rw [withComments_firstLine (hline content rfl).2]
    exact begins_text (by decide) _ _ _

/-! ## The module -/

/-- Where its items are read, each by itself, the module is read as it was printed. -/
theorem readAs?_module {whole : Span} (hclosed : s.comments.Closed)
    (hline : LegalFirstLine hashbang whole.lo s.comments) (hitems : ∀ t ∈ ts, ReadsInPrint d s t) :
    let module := Script.Tree.node (.module hashbang) whole ts
    readAs? d ((module.doc s).render s.comments) = some module.eraseSpans := by
  intro module
  let front : Doc := Doc.before whole.lo ++ firstLine hashbang
  let cs := unprinted s.comments front
  let last : Doc := (Doc.after whole.hi).withComments (unprinted cs (s.items ts))
  have hcs : cs ⊆ s.comments := unprinted_subset s.comments front
  have hdoc : (module.doc s).withComments s.comments =
      front.withComments s.comments ++ ((s.items ts).withComments cs ++ last) := by
    have hmodule : module.doc s = front ++ (s.items ts ++ Doc.after whole.hi) := by
      have hparts : module.doc s = Doc.before whole.lo ++ (firstLine hashbang ++ s.items ts ++
          Doc.after whole.hi) := by
        cases hashbang <;> rfl
      rw [hparts]
      simp only [front, List.append_assoc]
    rw [hmodule, Doc.withComments_append front, Doc.withComments_append (s.items ts)]
  obtain ⟨m, gap, hgap, hfront⟩ := readsModule_firstLine (d := d) hclosed hline
  obtain ⟨m₁, gap₁, hgap₁, hread⟩ := readsItems_items hitems hcs m hgap
  obtain ⟨m₂, gap₂, hgap₂, hlast⟩ := Doc.isGap_comments .trailing whole.hi true _
    (Doc.closed_unprinted (Doc.closed_unprinted hclosed front) (s.items ts)) m₁
  have hend : Doc.layout m₁ last = gap₂ := by simpa [Doc.layout, last, Doc.after] using hlast []
  have hbegins : ∀ m, Begins isUnmarked
      (Doc.layout m ((s.items ts).withComments cs ++ last)) := by
    intro m
    cases ts with
    | nil =>
      have hempty (m : Margin) : Begins isUnmarked (Doc.layout m []) := rfl
      have hcomments : Begins isUnmarked (Doc.layout m (last ++ [])) :=
        begins_comments .trailing whole.hi true hempty m
      rwa [List.append_nil] at hcomments
    | cons t ts =>
      rw [items_cons, Doc.withComments_append, List.append_assoc]
      exact (hitems t List.mem_cons_self).unmarked cs (Doc.closed_unprinted hclosed front) m _
  have hall := (hfront _).append (hread last)
  rw [List.nil_append, ← hdoc] at hall
  obtain ⟨program, hprogram, -, htree⟩ := Script.ofSource?_module hall
    (hend ▸ hgap₁.append hgap₂).last (withoutMark_of_begins (hdoc ▸ begins_firstLine hline hbegins))
  rw [readAs?, Doc.render, hprogram, Tree.eraseSpans_node]
  exact congrArg some htree

end InlineTemplates
