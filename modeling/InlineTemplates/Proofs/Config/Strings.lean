import InlineTemplates.Proofs.Config.Takes

/-! # Strings are read however they are written -/

namespace InlineTemplates.Json

open Reader

/-! ## Escapes -/

theorem hexDigit?_of_spells {c : Char} {n : Nat} (h : SpellsDigit c n) :
    hexDigit? c = some n ∧ c.utf8Size = 1 := by
  have hlower : ∀ n < 16, hexDigit? n.digitChar = some n ∧ n.digitChar.utf8Size = 1 := by decide
  have hupper : ∀ n < 16, hexDigit? n.digitChar.toUpper = some n ∧
      n.digitChar.toUpper.utf8Size = 1 := by decide
  rcases h.2 with rfl | rfl
  · exact hlower n h.1
  · exact hupper n h.1

theorem takes_hexCode {w : Text} {n : Nat} (h : SpellsCode w n) (s : Text) :
    Takes hexCode (w ++ s) s n := by
  obtain ⟨h₁, h₂, h₃, h₄⟩ := h
  obtain ⟨d₁, z₁⟩ := hexDigit?_of_spells h₁
  obtain ⟨d₂, z₂⟩ := hexDigit?_of_spells h₂
  obtain ⟨d₃, z₃⟩ := hexDigit?_of_spells h₃
  obtain ⟨d₄, z₄⟩ := hexDigit?_of_spells h₄
  rename_i c₁ c₂ c₃ c₄ n₁ n₂ n₃ n₄
  intro p
  have hlong : ¬ byteLength ([c₁, c₂, c₃, c₄] ++ s) < 4 := by
    simp [byteLength, z₁, z₂, z₃, z₄]
    omega
  have hbehind : ∃ q, behindBytes 4 ⟨p, [c₁, c₂, c₃, c₄] ++ s⟩ = ⟨q, s⟩ := by
    simp [behindBytes, z₁, z₂, z₃, z₄]
  obtain ⟨q, hq⟩ := hbehind
  refine ⟨q, ?_⟩
  unfold hexCode
  refine (run_bind_of_ok (run_get _)).trans ?_
  dsimp only
  rw [if_neg hlong, hq]
  refine (run_bind_of_ok (run_set _ _)).trans ?_
  simp [d₁, d₂, d₃, d₄]
  rfl

theorem takes_codeEscape {w : Text} {c : Char} (h : SpellsCode w c.toNat) (s : Text) :
    Takes codeEscape (w ++ s) s c := by
  -- No character is a half of a surrogate pair.
  have hc : c.toNat < 0xD800 ∨ 0xDFFF < c.toNat ∧ c.toNat < 0x110000 := c.valid
  unfold codeEscape
  refine (takes_hexCode h s).bind ?_
  rw [if_neg (by simp; omega)]
  dsimp only
  rw [if_pos (by simp; omega), Char.ofNat_toNat]
  exact .pure c s

theorem takes_codeEscape_pair {w u : Text} {c : Char} (hlarge : 0x10000 ≤ c.toNat)
    (hfirst : SpellsCode w (0xD800 + (c.toNat - 0x10000) / 0x400))
    (hsecond : SpellsCode u (0xDC00 + (c.toNat - 0x10000) % 0x400)) (s : Text) :
    Takes codeEscape (w ++ ('\\' :: 'u' :: u ++ s)) s c := by
  have hc : c.toNat < 0xD800 ∨ 0xDFFF < c.toNat ∧ c.toNat < 0x110000 := c.valid
  unfold codeEscape
  refine (takes_hexCode hfirst _).bind ?_
  rw [if_neg (by simp; omega)]
  dsimp only
  rw [if_neg (by simp; omega)]
  refine (Takes.pairMark _ _).bind ((Takes.pairMark _ _).bind ((takes_hexCode hsecond s).bind ?_))
  rw [if_neg (by simp; omega)]
  have hsum : (0xD800 + (c.toNat - 0x10000) / 0x400 - 0xD800) * 0x400 +
      (0xDC00 + (c.toNat - 0x10000) % 0x400 - 0xDC00) + 0x10000 = c.toNat := by omega
  rw [hsum, Char.ofNat_toNat]
  exact .pure c s

theorem letterEscape?_of_short {letter c : Char} (h : (letter, c) ∈ shortEscapes) :
    letterEscape? letter = some c ∧ letter ≠ 'u' := by
  have hall : ∀ e ∈ shortEscapes, letterEscape? e.1 = some e.2 ∧ e.1 ≠ 'u' := by decide
  exact hall (letter, c) h

theorem takes_escape_short {letter c : Char} (h : (letter, c) ∈ shortEscapes) (s : Text) :
    Takes escape (letter :: s) s c := by
  obtain ⟨hletter, hu⟩ := letterEscape?_of_short h
  unfold escape
  refine (Takes.peek? _).bind ?_
  split
  · next heq => cases heq
  · next heq => exact absurd (Option.some.inj heq) hu
  · next heq =>
    obtain rfl := Option.some.inj heq
    rw [hletter]
    exact (Takes.skip _ s).bind (.pure c s)

theorem takes_escape_code {w s : Text} {c : Char} (h : Takes codeEscape w s c) :
    Takes escape ('u' :: w) s c := by
  unfold escape
  exact (Takes.peek? _).bind ((Takes.skip _ _).bind h)

/-! ## Strings -/

theorem takes_string_escape {w s : Text} {c : Char} (found : Text) (h : Takes escape w s c) :
    Takes (string.step found) ('\\' :: w) s (some (c :: found)) := by
  unfold string.step
  exact (Takes.peek? _).bind ((Takes.skip _ _).bind (h.bind (.pure _ s)))

theorem takes_string_step {w : Text} {c : Char} (h : SpellsChar w c) (found s : Text) :
    Takes (string.step found) (w ++ s) s (some (c :: found)) := by
  cases h with
  | plain hprint hquote hslash =>
    unfold string.step
    refine (Takes.peek? _).bind ?_
    split
    · next heq => cases heq
    · next heq => exact absurd (Option.some.inj heq) hquote
    · next heq => exact absurd (Option.some.inj heq) hslash
    · next heq =>
      obtain rfl := Option.some.inj heq
      rw [if_neg (by omega)]
      exact (Takes.skip _ s).bind (.pure _ s)
  | short hletter => exact takes_string_escape found (takes_escape_short hletter s)
  | code hcode => exact takes_string_escape found (takes_escape_code (takes_codeEscape hcode s))
  | pair hlarge hfirst hsecond =>
    have hpair := takes_codeEscape_pair hlarge hfirst hsecond s
    have hstep := takes_string_escape found (takes_escape_code hpair)
    simpa using hstep

theorem SpellsChar.ne_nil {w : Text} {c : Char} (h : SpellsChar w c) : w ≠ [] := by
  cases h <;> exact List.cons_ne_nil _ _

theorem rounds_string {w t : Text} (h : SpellsChars w t) (s found : Text) :
    Rounds string.step (w ++ '"' :: s) s found (t.reverse ++ found) := by
  induction h generalizing found with
  | nil =>
    refine .last ?_
    unfold string.step
    exact (Takes.peek? _).bind ((Takes.skip _ s).bind (.pure _ s))
  | @cons w u t c hc _ ih =>
    rw [List.append_assoc, List.reverse_cons, List.append_assoc]
    exact .more hc.ne_nil (takes_string_step hc found _) (ih (c :: found))

theorem takes_string {w t : Text} (h : SpellsChars w t) (s : Text) :
    Takes string (w ++ '"' :: s) s t := by
  unfold string
  refine (rounds_string h s []).takes.bind ?_
  rw [List.append_nil, List.reverse_reverse]
  exact .pure t s

theorem takes_key {w t : Text} (h : SpellsString w t) (s : Text) : Takes key (w ++ s) s t := by
  obtain ⟨hchars⟩ := h
  unfold key
  simpa using (Takes.skip _ _).bind (takes_string hchars s)

/-! ## Strings that do not matter -/

theorem takes_skipString_code {w : Text} {n : Nat} (h : SpellsCode w n) (found s : Text) :
    Takes (skipString.step found) ('\\' :: 'u' :: w ++ s) s (some found) := by
  unfold skipString.step
  exact (Takes.peek? _).bind ((Takes.skip _ _).bind ((Takes.peek? _).bind
    ((Takes.skip _ _).bind ((takes_hexCode h s).bind (.pure _ s)))))

theorem rounds_skipString_char {w : Text} {c : Char} (h : SpellsChar w c) {s rest : Text}
    {found all : Text} (hmore : Rounds skipString.step s rest found all) :
    Rounds skipString.step (w ++ s) rest found all := by
  cases h with
  | plain hprint hquote hslash =>
    refine .more (List.cons_ne_nil _ _) ?_ hmore
    unfold skipString.step
    refine (Takes.peek? _).bind ?_
    split
    · next heq => cases heq
    · next heq => exact absurd (Option.some.inj heq) hquote
    · next heq => exact absurd (Option.some.inj heq) hslash
    · next heq =>
      obtain rfl := Option.some.inj heq
      rw [if_neg (by omega)]
      exact (Takes.skip _ s).bind (.pure _ s)
  | short hletter =>
    obtain ⟨hletter, hu⟩ := letterEscape?_of_short hletter
    refine .more (List.cons_ne_nil _ _) ?_ hmore
    unfold skipString.step
    refine (Takes.peek? _).bind ((Takes.skip _ _).bind ((Takes.peek? _).bind ?_))
    split
    · next heq => cases heq
    · next heq => exact absurd (Option.some.inj heq) hu
    · next heq =>
      obtain rfl := Option.some.inj heq
      rw [hletter]
      exact (Takes.skip _ s).bind (.pure _ s)
  | code hcode => exact .more (List.cons_ne_nil _ _) (takes_skipString_code hcode found s) hmore
  | pair hlarge hfirst hsecond =>
    have hrest := Rounds.more (List.cons_ne_nil _ _) (takes_skipString_code hsecond found s) hmore
    rw [List.append_assoc]
    exact .more (List.cons_ne_nil _ _) (takes_skipString_code hfirst found _) hrest

theorem takes_skipString {w t : Text} (h : SpellsChars w t) (s : Text) :
    Takes skipString (w ++ '"' :: s) s () := by
  have hrounds : Rounds skipString.step (w ++ '"' :: s) s [] [] := by
    induction h with
    | nil =>
      refine .last ?_
      unfold skipString.step
      exact (Takes.peek? _).bind ((Takes.skip _ s).bind (.pure _ s))
    | cons hc _ ih =>
      rw [List.append_assoc]
      exact rounds_skipString_char hc ih
  unfold skipString
  exact hrounds.takes.bind (.pure _ s)

end InlineTemplates.Json
