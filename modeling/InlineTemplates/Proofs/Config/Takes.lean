import InlineTemplates.Json.Value
import InlineTemplates.Proofs.Config.Spelling

/-! # Readings that succeed

What a step of reading gives and where it stops, wherever its text stands. -/

namespace InlineTemplates.Json

/-- The step reads from `s` on up to `rest` and gives `a`. -/
def Takes {α : Type} (step : Reader α) (s rest : Text) (a : α) : Prop :=
  ∀ p, ∃ q, step.run.run ⟨p, s⟩ = (.ok a, ⟨q, rest⟩)

theorem run_bind_of_ok {α β : Type} {step : Reader α} {next : α → Reader β} {a : α}
    {c c₁ : Cursor} (h : step.run.run c = (.ok a, c₁)) :
    (step >>= next).run.run c = (next a).run.run c₁ := by
  rw [ExceptT.run_bind, StateT.run_bind, h]
  rfl

theorem run_get (c : Cursor) : (get : Reader Cursor).run.run c = (.ok c, c) := rfl

theorem run_set (c c₁ : Cursor) : (set c₁ : Reader Unit).run.run c = (.ok (), c₁) := rfl

namespace Takes

variable {α β : Type} {s s₁ rest : Text} {a : α} {b : β}

theorem pure (a : α) (s : Text) : Takes (pure a) s s a := fun p => ⟨p, rfl⟩

theorem bind {step : Reader α} {next : α → Reader β} (h : Takes step s s₁ a)
    (hnext : Takes (next a) s₁ rest b) : Takes (step >>= next) s rest b := by
  intro p
  obtain ⟨p₁, hstep⟩ := h p
  obtain ⟨q, hrest⟩ := hnext p₁
  exact ⟨q, (run_bind_of_ok hstep).trans hrest⟩

theorem peek? (s : Text) : Takes Reader.peek? s s s.head? := fun p => ⟨p, rfl⟩

theorem skip (c : Char) (s : Text) : Takes Reader.skip (c :: s) s () := fun p =>
  ⟨placeAfter p c, rfl⟩

theorem pairMark (c : Char) (s : Text) : Takes (Reader.pairMark c) (c :: s) s () := by
  unfold Reader.pairMark
  refine (peek? _).bind ?_
  simp only [List.head?_cons, beq_self_eq_true, if_true]
  exact skip c s

theorem placed {step : Reader α} (h : Takes step s rest a) :
    Takes (Reader.placed step) s rest a := by
  intro p
  obtain ⟨q, hstep⟩ := h p
  refine ⟨q, ?_⟩
  change (ExceptT.run (tryCatch step _)).run _ = _
  rw [ExceptT.run_tryCatch, StateT.run_bind, hstep]
  rfl

theorem closed {content : Reader α} {close : Reader Unit} (h : Takes content s s₁ a)
    (hclose : Takes close s₁ rest ()) : Takes (Reader.closed content close) s rest a := by
  apply placed
  intro p
  obtain ⟨p₁, hcontent⟩ := h p
  obtain ⟨q, hend⟩ := hclose p₁
  refine ⟨q, ?_⟩
  rw [ExceptT.run_mk, StateT.run_bind, hcontent]
  change StateT.run (ExceptT.run close >>= _) _ = _
  rw [StateT.run_bind, hend]
  rfl

theorem opened {depth : Nat} (h : 1 < depth) (c : Char) (s : Text) :
    Takes (Reader.opened depth) (c :: s) s () := by
  unfold Reader.opened
  rw [if_neg (by omega)]
  exact skip c s

/-! ## Marks -/

theorem isBlank_iff (c : Char) : Reader.isBlank c = true ↔ c ∈ [' ', '\n', '\t', '\r'] := by
  simp [Reader.isBlank, or_assoc]

theorem next?_of {b : Text} (hb : Blanks b) {s : Text}
    (hs : ∀ c ∈ s.head?, Reader.isBlank c = false) : Takes Reader.next? (b ++ s) s s.head? := by
  intro p
  have hbehind : ∃ q, Reader.behindBlanks p (b ++ s) = ⟨q, s⟩ := by
    induction b generalizing p with
    | nil =>
      cases s with
      | nil => exact ⟨p, rfl⟩
      | cons c s => exact ⟨p, by simp [Reader.behindBlanks, hs c rfl]⟩
    | cons d b ih =>
      obtain ⟨q, hq⟩ := ih (fun x hx => hb x (by simp [hx])) (placeAfter p d)
      have hd : Reader.isBlank d = true := (isBlank_iff d).2 (hb d (by simp))
      exact ⟨q, by simp [Reader.behindBlanks, hd, hq]⟩
  obtain ⟨q, hq⟩ := hbehind
  refine ⟨q, ?_⟩
  change (Except.ok (Reader.behindBlanks p (b ++ s)).rest.head?,
    Reader.behindBlanks p (b ++ s)) = _
  rw [hq]

theorem next? {b : Text} (hb : Blanks b) {c : Char} (hc : Reader.isBlank c = false) (s : Text) :
    Takes Reader.next? (b ++ c :: s) (c :: s) (some c) :=
  next?_of hb (by simpa using hc)

theorem textEnd {b : Text} (hb : Blanks b) : Takes Reader.textEnd b [] () := by
  unfold Reader.textEnd
  have hnext := next?_of hb (s := []) (by simp)
  rw [List.append_nil] at hnext
  exact hnext.bind (pure _ _)

theorem colon {b : Text} (hb : Blanks b) (s : Text) : Takes Reader.colon (b ++ ':' :: s) s () := by
  unfold Reader.colon
  exact (next? hb rfl s).bind (skip _ s)

theorem objectEnd {b : Text} (hb : Blanks b) (s : Text) :
    Takes Reader.objectEnd (b ++ '\x7d' :: s) s () := by
  unfold Reader.objectEnd
  exact (next? hb rfl s).bind (skip _ s)

theorem atKey_end {b : Text} (hb : Blanks b) (first : Bool) (s : Text) :
    Takes (Reader.atKey first) (b ++ '\x7d' :: s) ('\x7d' :: s) false := by
  unfold Reader.atKey
  exact (next? hb rfl s).bind (pure _ _)

theorem atKey_first {b : Text} (hb : Blanks b) (s : Text) :
    Takes (Reader.atKey true) (b ++ '"' :: s) ('"' :: s) true := by
  unfold Reader.atKey
  exact (next? hb rfl s).bind (pure _ _)

theorem atKey_more {b b' : Text} (hb : Blanks b) (hb' : Blanks b') (s : Text) :
    Takes (Reader.atKey false) (b ++ ',' :: (b' ++ '"' :: s)) ('"' :: s) true := by
  unfold Reader.atKey
  exact (next? hb rfl _).bind ((skip _ _).bind ((next? hb' rfl s).bind (pure _ _)))

end Takes

/-! ## Repetition -/

/-- Rounds of a step that lead from what was found before to what is found at the end. -/
inductive Rounds {α : Type} (step : List α → Reader (Option (List α))) :
    Text → Text → List α → List α → Prop where
  | last {s rest : Text} {found : List α} : Takes (step found) s rest none →
      Rounds step s rest found found
  | more {w s rest : Text} {found more all : List α} : w ≠ [] →
      Takes (step found) (w ++ s) s (some more) → Rounds step s rest more all →
      Rounds step (w ++ s) rest found all

theorem Rounds.takes_go {α : Type} {step : List α → Reader (Option (List α))} {s rest : Text}
    {found all : List α} (h : Rounds step s rest found all) (n : Nat) (hn : s.length < n) :
    Takes (Reader.repeated.go step n found) s rest all := by
  induction h generalizing n with
  | last hstep =>
    obtain ⟨n, rfl⟩ := Nat.exists_eq_succ_of_ne_zero (by omega : n ≠ 0)
    exact hstep.bind (.pure _ _)
  | more hw hstep _ ih =>
    obtain ⟨n, rfl⟩ := Nat.exists_eq_succ_of_ne_zero (by omega : n ≠ 0)
    have hpos := List.length_pos_iff.2 hw
    rw [List.length_append] at hn
    exact hstep.bind (ih n (by omega))

theorem Rounds.takes {α : Type} {step : List α → Reader (Option (List α))} {s rest : Text}
    {all : List α} (h : Rounds step s rest [] all) : Takes (Reader.repeated step) s rest all :=
  fun p => h.takes_go s.length.succ (by omega) p

end InlineTemplates.Json
