import InlineTemplates.Proofs.Config.Strings

/-! # Objects are read however they are written -/

namespace InlineTemplates.Json

open Reader

/-! ## Entries -/

/-- What stands before an entry: nothing if it is the first one, else the comma behind the entry
before it. -/
def Lead (first : Bool) (w : Text) : Prop :=
  if first then w = [] else ∃ b, Blanks b ∧ w = b ++ [',']

theorem takes_atKey {first : Bool} {w b k key : Text} (hw : Lead first w) (hb : Blanks b)
    (hk : SpellsString k key) (s : Text) :
    Takes (atKey first) (w ++ (b ++ k ++ s)) (k ++ s) true := by
  obtain ⟨-⟩ := hk
  cases first with
  | true =>
    obtain rfl : w = [] := hw
    simpa using Takes.atKey_first hb _
  | false =>
    obtain ⟨b', hb', rfl⟩ : ∃ b, Blanks b ∧ w = b ++ [','] := hw
    simpa using Takes.atKey_more hb' hb _

theorem SpellsEntry.takes {α : Type} {Spells : Text → Text × α → Prop} {w : Text} {e : Text × α}
    (he : SpellsEntry Spells w e) {first : Bool} {lead : Text} (hlead : Lead first lead) (s : Text) :
    ∃ s₁ s₂ b v, Takes (atKey first) (lead ++ w ++ s) s₁ true ∧ Takes key s₁ s₂ e.1 ∧
      Takes colon s₂ (b ++ (v ++ s)) () ∧ Blanks b ∧ Spells v e := by
  obtain @⟨b₁, k, b₂, b₃, v, key, a, hb₁, hk, hb₂, hb₃, hv⟩ := he
  have hat := takes_atKey hlead hb₁ hk (b₂ ++ ':' :: (b₃ ++ (v ++ s)))
  refine ⟨_, _, b₃, v, ?_, takes_key hk _, .colon hb₂ _, hb₃, hv⟩
  simpa using hat

/-- A step that reads one entry in each round and adds it to what it found, as long as that fits
together with the entries to come. -/
structure ReadsEntries {α β : Type} (Spells : Text → Text × α → Prop)
    (step : List β → Reader (Option (List β))) (grow : List β → Text × α → List β)
    (Fits : List β → List (Text × α) → Prop) : Prop where
  stop {b : Text} (hb : Blanks b) (found : List β) (s : Text) :
    Takes (step found) (b ++ '\x7d' :: s) ('\x7d' :: s) none
  entry {found : List β} {lead w : Text} {e : Text × α} {es : List (Text × α)}
    (hfits : Fits found (e :: es)) (hlead : Lead found.isEmpty lead) (he : SpellsEntry Spells w e)
    (s : Text) : Takes (step found) (lead ++ w ++ s) s (some (grow found e))
  isEmpty_grow (found : List β) (e : Text × α) : (grow found e).isEmpty = false
  fits_grow {found : List β} {e : Text × α} {es : List (Text × α)} (hfits : Fits found (e :: es)) :
    Fits (grow found e) es

section

variable {α β : Type} {Spells : Text → Text × α → Prop}
  {step : List β → Reader (Option (List β))} {grow : List β → Text × α → List β}
  {Fits : List β → List (Text × α) → Prop}

theorem SpellsEntry.ne_nil {w : Text} {e : Text × α} (h : SpellsEntry Spells w e) : w ≠ [] := by
  obtain ⟨-, -, -, -, -⟩ := h
  simp

theorem ReadsEntries.rounds (h : ReadsEntries Spells step grow Fits) {w : Text}
    {es : List (Text × α)} (hw : SpellsEntries Spells w es) {found : List β} {lead : Text}
    (hfits : Fits found es) (hlead : Lead found.isEmpty lead) (s : Text) :
    Rounds step (lead ++ w ++ '\x7d' :: s) ('\x7d' :: s) found (es.foldl grow found) := by
  -- The blanks behind an entry and the comma lead the next one.
  induction hw generalizing found lead with
  | @one w b e he hb =>
    have hlast : Rounds step (b ++ '\x7d' :: s) ('\x7d' :: s) (grow found e) (grow found e) :=
      .last (h.stop hb _ s)
    have hmore := Rounds.more (List.append_ne_nil_of_right_ne_nil lead he.ne_nil)
      (h.entry hfits hlead he _) hlast
    simpa using hmore
  | @more w b u e es he hb _ ih =>
    have hnext : Lead (grow found e).isEmpty (b ++ [',']) := by
      rw [h.isEmpty_grow]
      exact ⟨b, hb, rfl⟩
    have hmore := Rounds.more (List.append_ne_nil_of_right_ne_nil lead he.ne_nil)
      (h.entry hfits hlead he _) (ih (h.fits_grow hfits) hnext)
    simpa using hmore

theorem ReadsEntries.takes (h : ReadsEntries Spells step grow Fits) {w : Text}
    {es : List (Text × α)} (hw : SpellsInside Spells w es) (hfits : Fits [] es) (s : Text) :
    Takes (repeated step) (w ++ '\x7d' :: s) ('\x7d' :: s) (es.foldl grow []) := by
  cases hw with
  | empty hb => exact (Rounds.last (h.stop hb [] s)).takes
  | entries hw =>
    have hlead : Lead ([] : List β).isEmpty [] := rfl
    exact (h.rounds hw hfits hlead s).takes

end

/-! ## Objects -/

theorem takes_closed {α : Type} {content : Reader α} {w s : Text} {a : α}
    (h : Takes content (w ++ '\x7d' :: s) ('\x7d' :: s) a) :
    Takes (closed content objectEnd) (w ++ ['\x7d'] ++ s) s a := by
  have hend : Takes objectEnd ('\x7d' :: s) s () := Takes.objectEnd (b := []) (by simp [Blanks]) s
  simpa using h.closed hend

theorem takes_entries {α β : Type} {Spells : Text → Text × α → Prop} {step : Reader β} {f : α → β}
    (hstep : ∀ {b v e}, Blanks b → Spells v e → ∀ s, Takes step (b ++ (v ++ s)) s (f e.2))
    {w : Text} {es : List (Text × α)} (hw : SpellsInside Spells w es) (s : Text) :
    Takes (entries step) (w ++ '\x7d' :: s) ('\x7d' :: s) (es.map fun e => (e.1, f e.2)) := by
  have hfold : es.foldl (fun found e => found ++ [(e.1, f e.2)]) [] =
      es.map fun e => (e.1, f e.2) := by
    rw [List.foldl_append_eq_append, List.nil_append, ← List.flatMap_def, List.map_eq_flatMap]
  rw [← hfold]
  unfold entries
  refine ReadsEntries.takes (?_ : ReadsEntries Spells _ _ fun _ _ => True) hw trivial s
  refine ⟨fun hb found s => (Takes.atKey_end hb _ s).bind (.pure _ _), ?_, by simp, by simp⟩
  intro found lead w e es _ hlead he s
  obtain ⟨s₁, s₂, b, v, hat, hkey, hcolon, hb, hv⟩ := he.takes hlead s
  exact hat.bind (hkey.bind (hcolon.bind ((hstep hb hv s).bind (.pure _ s))))

end InlineTemplates.Json
