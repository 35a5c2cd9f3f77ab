import InlineTemplates.Config.Basic

/-! # The texts that spell a configuration

A string, an object and with them a map from modules to exports can be written in many ways. These
are the ways as the standard of JSON has them, told apart from how a text is read. -/

namespace InlineTemplates

namespace Json

/-- What may stand around each mark. -/
def Blanks (w : Text) : Prop := ∀ c ∈ w, c ∈ [' ', '\n', '\t', '\r']

/-! ## Strings -/

def SpellsDigit (c : Char) (n : Nat) : Prop :=
  n < 16 ∧ (c = n.digitChar ∨ c = n.digitChar.toUpper)

inductive SpellsCode : Text → Nat → Prop where
  | digits {c₁ c₂ c₃ c₄ : Char} {n₁ n₂ n₃ n₄ : Nat} : SpellsDigit c₁ n₁ → SpellsDigit c₂ n₂ →
      SpellsDigit c₃ n₃ → SpellsDigit c₄ n₄ →
      SpellsCode [c₁, c₂, c₃, c₄] (((n₁ * 16 + n₂) * 16 + n₃) * 16 + n₄)

/-- The letters that stand for a character behind a backslash. -/
def shortEscapes : List (Char × Char) :=
  [('"', '"'), ('\\', '\\'), ('/', '/'), ('b', '\x08'), ('f', '\x0c'), ('n', '\n'), ('r', '\r'),
    ('t', '\t')]

/-- A character in a string: the character itself, an escape by a letter, by a code, or by the codes
of both halves of a surrogate pair. -/
inductive SpellsChar : Text → Char → Prop where
  | plain {c : Char} : 0x20 ≤ c.toNat → c ≠ '"' → c ≠ '\\' → SpellsChar [c] c
  | short {letter c : Char} : (letter, c) ∈ shortEscapes → SpellsChar ['\\', letter] c
  | code {w : Text} {c : Char} : SpellsCode w c.toNat → SpellsChar ('\\' :: 'u' :: w) c
  | pair {w u : Text} {c : Char} : 0x10000 ≤ c.toNat →
      SpellsCode w (0xD800 + (c.toNat - 0x10000) / 0x400) →
      SpellsCode u (0xDC00 + (c.toNat - 0x10000) % 0x400) →
      SpellsChar ('\\' :: 'u' :: w ++ '\\' :: 'u' :: u) c

inductive SpellsChars : Text → Text → Prop where
  | nil : SpellsChars [] []
  | cons {w u t : Text} {c : Char} : SpellsChar w c → SpellsChars u t →
      SpellsChars (w ++ u) (c :: t)

inductive SpellsString : Text → Text → Prop where
  | quoted {w t : Text} : SpellsChars w t → SpellsString ('"' :: w ++ ['"']) t

/-! ## Objects -/

section

variable {α : Type} (Spells : Text → Text × α → Prop)

/-- An entry of an object. `Spells` tells how its value may be written. -/
inductive SpellsEntry : Text → Text × α → Prop where
  | entry {b₁ k b₂ b₃ v key : Text} {a : α} : Blanks b₁ → SpellsString k key → Blanks b₂ →
      Blanks b₃ → Spells v (key, a) →
      SpellsEntry (b₁ ++ k ++ b₂ ++ ':' :: b₃ ++ v) (key, a)

/-- Entries with commas between them. -/
inductive SpellsEntries : Text → List (Text × α) → Prop where
  | one {w b : Text} {e : Text × α} : SpellsEntry Spells w e → Blanks b → SpellsEntries (w ++ b) [e]
  | more {w b u : Text} {e : Text × α} {es : List (Text × α)} : SpellsEntry Spells w e →
      Blanks b → SpellsEntries u es → SpellsEntries (w ++ b ++ ',' :: u) (e :: es)

/-- What stands between the braces of an object. -/
inductive SpellsInside : Text → List (Text × α) → Prop where
  | empty {b : Text} : Blanks b → SpellsInside b []
  | entries {w : Text} {es : List (Text × α)} : SpellsEntries Spells w es → SpellsInside w es

inductive SpellsObject : Text → List (Text × α) → Prop where
  | braced {w : Text} {es : List (Text × α)} : SpellsInside Spells w es →
      SpellsObject ('\x7b' :: w ++ ['\x7d']) es

end

theorem blanks_nil : Blanks [] := by simp [Blanks]

/-! ## A string in its quotes -/

/-- A character that does not need an escape, or its escape by a code. -/
def quotedChar (c : Char) : Text :=
  if 0x20 ≤ c.toNat ∧ c ≠ '"' ∧ c ≠ '\\' then [c]
  else ['\\', 'u', '0', '0', (c.toNat / 16).digitChar, (c.toNat % 16).digitChar]

def quoted (t : Text) : Text := '"' :: t.flatMap quotedChar ++ ['"']

theorem spellsDigit_digitChar {n : Nat} (h : n < 16) : SpellsDigit n.digitChar n := ⟨h, .inl rfl⟩

theorem spells_quotedChar (c : Char) : SpellsChar (quotedChar c) c := by
  unfold quotedChar
  split
  · next h => exact .plain h.1 h.2.1 h.2.2
  · next h =>
    have hsmall : c.toNat < 0x100 := by
      refine Decidable.byContradiction fun hlarge => h ⟨by omega, ?_, ?_⟩
      · rintro rfl
        exact hlarge (by decide)
      · rintro rfl
        exact hlarge (by decide)
    have hzero := spellsDigit_digitChar (n := 0) (by omega)
    have hcode := SpellsCode.digits hzero hzero
      (spellsDigit_digitChar (n := c.toNat / 16) (by omega))
      (spellsDigit_digitChar (n := c.toNat % 16) (by omega))
    rw [show ((0 * 16 + 0) * 16 + c.toNat / 16) * 16 + c.toNat % 16 = c.toNat by omega] at hcode
    exact .code hcode

theorem spells_quoted (t : Text) : SpellsString (quoted t) t := by
  refine .quoted ?_
  induction t with
  | nil => exact .nil
  | cons c t ih => exact .cons (spells_quotedChar c) ih

end Json

namespace Config

open Json

/-- An export: a string, or an object with the string under its only key `export` and with strings
under other keys. -/
def SpellsExport (w e : Text) : Prop :=
  SpellsString w e ∨
    ∃ fields : List (Text × Text), SpellsObject (fun v f => SpellsString v f.2) w fields ∧
      fields.filter (·.1 == text "export") = [(text "export", e)]

/-- The entries of modules, in the order in which they are written. -/
def SpellsModules (w : Text) (entries : List ModuleEntry) : Prop :=
  SpellsObject (fun v e => SpellsExport v e.2) w entries

/-- What stands under a key of a configuration: the modules, or a string that does not matter. -/
inductive SpellsField : Text → Text × Option (List ModuleEntry) → Prop where
  | modules {w : Text} {entries : List ModuleEntry} : SpellsModules w entries →
      SpellsField w (text "modules", some entries)
  | other {w k t : Text} : k ≠ text "modules" → SpellsString w t → SpellsField w (k, none)

/-- A configuration with `modules` once. -/
def SpellsEntriesOf (source : Text) (entries : List ModuleEntry) : Prop :=
  ∃ b₁ w b₂ fields, Blanks b₁ ∧ SpellsObject SpellsField w fields ∧ Blanks b₂ ∧
    source = b₁ ++ w ++ b₂ ∧ fields.filterMap (·.2) = [entries]

/-- The text spells the map with these entries: the last one of a module counts. -/
def SpellsBy (source : Text) (entries : List ModuleEntry) (exports : Text → Option Text) : Prop :=
  SpellsEntriesOf source entries ∧ ∀ m, exports m = entries.reverse.lookup m

def SpellsMap (source : Text) (exports : Text → Option Text) : Prop :=
  ∃ entries, SpellsBy source entries exports

/-! ## A text for each map -/

def writtenEntries : List ModuleEntry → Text
  | [] => []
  | [e] => quoted e.1 ++ ':' :: quoted e.2
  | e :: es => quoted e.1 ++ ':' :: quoted e.2 ++ ',' :: writtenEntries es

/-- A text without blanks, with an export as a string. -/
def written (entries : List ModuleEntry) : Text :=
  '\x7b' :: quoted (text "modules") ++ ':' :: '\x7b' :: writtenEntries entries ++ ['\x7d', '\x7d']

theorem spells_writtenEntries (entries : List ModuleEntry) :
    SpellsInside (fun v e => SpellsExport v e.2) (writtenEntries entries) entries := by
  have hentry : ∀ e : ModuleEntry,
      SpellsEntry (fun v e => SpellsExport v e.2) (quoted e.1 ++ ':' :: quoted e.2) e := fun e => by
    simpa using SpellsEntry.entry blanks_nil (spells_quoted e.1) blanks_nil blanks_nil
      (.inl (spells_quoted e.2) : SpellsExport (quoted e.2) e.2)
  cases entries with
  | nil => exact .empty blanks_nil
  | cons e es =>
    refine .entries ?_
    induction es generalizing e with
    | nil => simpa [writtenEntries] using SpellsEntries.one (hentry e) blanks_nil
    | cons e' es ih => simpa [writtenEntries] using SpellsEntries.more (hentry e) blanks_nil (ih e')

theorem spells_written (entries : List ModuleEntry) :
    SpellsEntriesOf (written entries) entries := by
  have hmodules : SpellsModules _ entries := .braced (spells_writtenEntries entries)
  have hfield := SpellsEntry.entry blanks_nil (spells_quoted (text "modules")) blanks_nil blanks_nil
    (SpellsField.modules hmodules)
  have hobject := SpellsObject.braced (.entries (.one hfield blanks_nil))
  refine ⟨[], _, [], _, blanks_nil, hobject, blanks_nil, ?_, rfl⟩
  simp [written]

end Config
end InlineTemplates
