import InlineTemplates.Proofs.Lexing.Blanks
import InlineTemplates.Script.Lexer.Next

/-! # How tokens are spelled

Words, strings and single marks, and how the lexer takes them off the front of a text. -/

namespace InlineTemplates.Script

variable {c : Context} {l l' : Lexer} {y : Text}

/-! ## Runs of reading steps -/

namespace Read

variable {α β : Type}

def runOn (step : Read α) (c : Context) (l : Lexer) : Except SyntaxError α × Lexer :=
  (step.run c).run.run l

theorem runOn_bind (step : Read α) (next : α → Read β) : runOn (step >>= next) c l =
    match runOn step c l with
    | (.ok a, l₁) => runOn (next a) c l₁
    | (.error e, l₁) => (.error e, l₁) := by
  change (ExceptT.run (step.run c >>= fun a => (next a).run c)).run l = _
  rw [ExceptT.run_bind, StateT.run_bind]
  unfold runOn
  cases (ExceptT.run (step.run c)).run l with
  | mk r l₁ => cases r <;> rfl

theorem runOn_then {step : Read α} {next : α → Read β} {a : α} {l₁ : Lexer}
    {r : Except SyntaxError β × Lexer} (h : runOn step c l = (.ok a, l₁))
    (hnext : runOn (next a) c l₁ = r) : runOn (step >>= next) c l = r := by
  rw [runOn_bind, h]
  exact hnext

theorem runOn_lexer : runOn lexer c l = (.ok l, l) := rfl

theorem runOn_next? : runOn next? c l = (.ok l.rest.head?, l) := rfl

theorem runOn_skip (n : Nat) : runOn (skip n) c l = (.ok (), l.skip n) := rfl

theorem runOn_takeWhile (p : Char → Bool) : runOn (takeWhile p) c l =
    (.ok (l.rest.takeWhile p), l.skip (l.rest.takeWhile p).length) := rfl

theorem runOn_since (before : Lexer) : runOn (since before) c l = (.ok (before.upTo l), l) := rfl

end Read

/-! ## Words -/

/-- The text is a word without escapes, reserved or not. -/
def IsWordText (n : Text) : Prop :=
  n.head?.any Text.isNameStart = true ∧ n.all Text.isNamePart = true

instance (n : Text) : Decidable (IsWordText n) := inferInstanceAs (Decidable (_ ∧ _))

/-- The token that a word without escapes is. -/
def wordToken (n : Text) : Token :=
  match Keyword.ofText? n with
  | some k => .keyword k
  | none => .name n false

def EndsWord (y : Text) : Prop := y.head?.all (fun ch => !Text.isNamePart ch && ch != '\\') = true

instance (y : Text) : Decidable (EndsWord y) := inferInstanceAs (Decidable (_ = true))

namespace Read

theorem takeWhile_isNamePart {n : Text} (hn : n.all Text.isNamePart = true) (hy : EndsWord y) :
    (n ++ y).takeWhile Text.isNamePart = n := by
  rw [List.takeWhile_append_of_pos (List.all_eq_true.mp hn)]
  cases y with
  | nil => simp
  | cons ch y =>
    rw [List.takeWhile_cons_of_neg (by simp_all [EndsWord]), List.append_nil]

theorem runOn_word {n : Text} (hn : IsWordText n) (hy : EndsWord y) (h : l.rest = n ++ y) :
    runOn word c l = (.ok (wordToken n), l.skip n.length) := by
  have hrun : l.rest.takeWhile Text.isNamePart = n := h ▸ takeWhile_isNamePart hn.2 hy
  have hrest : (l.skip n.length).rest = y := Lexer.rest_skip_of_append h rfl
  have hstop : ((l.skip n.length).rest.head? == some '\\') = false := by
    rw [hrest]
    cases y with
    | nil => rfl
    | cons ch y => simp_all [EndsWord]
  have hword : runOn (wordRest (l.rest.length + 1) [] false) c l =
      (.ok (n, false), l.skip n.length) := by
    unfold wordRest
    refine runOn_then (runOn_takeWhile _) ?_
    rw [hrun]
    refine runOn_then runOn_next? ?_
    rw [hstop]
    rfl
  have hplain : (l.rest.head? == some '\\') = false := by
    rw [h]
    cases n with
    | nil => simp [IsWordText] at hn
    | cons ch n =>
      have hpart := List.all_eq_true.mp hn.2 ch List.mem_cons_self
      simp only [List.cons_append, List.head?_cons, beq_eq_false_iff_ne, ne_eq, Option.some.injEq]
      rintro rfl
      revert hpart
      decide
  unfold word
  refine runOn_then runOn_lexer (runOn_then hword ?_)
  dsimp only
  rw [hplain]
  unfold wordToken
  cases Keyword.ofText? n <;> rfl

end Read

/-! ## Strings -/

/-- The escape stands for these characters, whatever follows it. -/
def Escapes (escape chars : Text) : Prop :=
  escape.head? = some '\\' ∧ ∀ c l y, l.rest = escape ++ y →
    Read.runOn (Read.escape false) c l = (.ok chars, l.skip escape.length)

/-- The characters between the quotes of a string, and the text that the string says. -/
inductive Quoted (quote : Char) : Text → Text → Prop
  | nil : Quoted quote [] []
  | char {ch : Char} {body value : Text}
      (hch : ch ≠ quote ∧ ch ≠ '\\' ∧ ch ≠ '\n' ∧ ch ≠ '\r') (h : Quoted quote body value) :
      Quoted quote (ch :: body) (ch :: value)
  | escape {escape chars body value : Text} (hescape : Escapes escape chars)
      (h : Quoted quote body value) : Quoted quote (escape ++ body) (chars ++ value)

/-- A string in quotes and the text that it says. -/
def IsString (raw value : Text) : Prop :=
  ∃ quote body, (quote = '\'' ∨ quote = '"') ∧ Quoted quote body value ∧
    raw = quote :: (body ++ [quote])

namespace Read

theorem runOn_stringRest_char {before : Lexer} {quote ch : Char} {n : Nat} {value rest : Text}
    (h : l.rest = ch :: rest) (hch : ch ≠ quote ∧ ch ≠ '\\' ∧ ch ≠ '\n' ∧ ch ≠ '\r') :
    runOn (stringRest before quote (n + 1) value) c l =
      runOn (stringRest before quote (n + 1) (value ++ [ch])) c (l.skip 1) := by
  have hrest : (l.skip 1).rest = rest := by rw [Lexer.rest_skip, h]; rfl
  have htake : l.rest.takeWhile (fun c => c != quote && c != '\\' && c != '\n' && c != '\r') =
      ch :: rest.takeWhile (fun c => c != quote && c != '\\' && c != '\n' && c != '\r') := by
    rw [h, List.takeWhile_cons_of_pos (by simpa [and_assoc] using hch)]
  unfold stringRest
  rw [runOn_bind, runOn_bind, runOn_takeWhile, runOn_takeWhile, hrest, htake]
  simp only [List.length_cons, List.append_assoc, List.singleton_append, Lexer.skip_skip,
    Nat.add_comm 1]

theorem runOn_stringRest {before : Lexer} {quote : Char} {body said : Text}
    (hq : quote = '\'' ∨ quote = '"') (hbody : Quoted quote body said) (n : Nat) (value : Text)
    (h : l.rest = body ++ quote :: y) (hn : body.length < n) :
    runOn (stringRest before quote n value) c l =
      (.ok (.string (value ++ said) (before.upTo (l.skip (body.length + 1)))),
        l.skip (body.length + 1)) := by
  obtain ⟨n, rfl⟩ : ∃ m, n = m + 1 := ⟨n - 1, by omega⟩
  induction hbody generalizing l n value with
  | nil =>
    have htake : l.rest.takeWhile (fun c => c != quote && c != '\\' && c != '\n' && c != '\r') =
        [] := by
      rw [h]
      exact List.takeWhile_cons_of_neg (by simp)
    unfold stringRest
    refine runOn_then (runOn_takeWhile _) ?_
    rw [htake]
    refine runOn_then runOn_next? ?_
    have hhead : (l.skip ([] : Text).length).rest.head? = some quote := by
      rw [Lexer.rest_skip, h]
      rfl
    have hbackslash : quote ≠ '\\' := by
      rintro rfl
      revert hq
      decide
    rw [hhead]
    split
    · next heq => exact absurd (Option.some.inj heq) hbackslash
    · next ch _ heq =>
      obtain rfl := Option.some.inj heq
      rw [if_pos (by simp)]
      refine runOn_then (runOn_skip 1) (runOn_then (runOn_since _) ?_)
      rw [Lexer.skip_skip]
      simp only [List.length_nil, Nat.zero_add, List.append_nil]
      rfl
    · next heq => cases heq
  | @char ch body said hch hbody ih =>
    rw [runOn_stringRest_char (by simpa using h) hch]
    have hrest : (l.skip 1).rest = body ++ quote :: y :=
      Lexer.rest_skip_of_append (t := [ch]) (by simpa using h) rfl
    rw [ih (value ++ [ch]) hrest n (by simp at hn; omega), Lexer.skip_skip]
    simp only [List.append_assoc, List.singleton_append, List.length_cons, Nat.add_comm 1]
  | @escape x chars body said hescape hbody ih =>
    obtain ⟨x', rfl⟩ : ∃ x', x = '\\' :: x' := by
      cases x with
      | nil => cases hescape.1
      | cons d x' => exact ⟨x', by rw [Option.some.inj hescape.1]⟩
    simp only [List.cons_append, List.append_assoc] at h
    simp only [List.length_append, List.length_cons] at hn
    obtain ⟨m, rfl⟩ : ∃ m, n = m + 1 := ⟨n - 1, by omega⟩
    have htake : l.rest.takeWhile (fun c => c != quote && c != '\\' && c != '\n' && c != '\r') =
        [] := by
      rw [h]
      exact List.takeWhile_cons_of_neg (by simp)
    have hskip : l.skip 0 = l := by simp [Lexer.skip]
    have hstep := hescape.2 c l (body ++ quote :: y) (by simpa using h)
    have hrest : (l.skip ('\\' :: x').length).rest = body ++ quote :: y :=
      Lexer.rest_skip_of_append (t := '\\' :: x') (by simpa using h) rfl
    unfold stringRest
    refine runOn_then (runOn_takeWhile _) ?_
    rw [htake, List.length_nil, hskip]
    refine runOn_then runOn_next? ?_
    rw [h, List.head?_cons]
    refine runOn_then hstep ?_
    rw [ih _ hrest _ (by omega), Lexer.skip_skip]
    simp only [List.append_assoc, List.append_nil, List.length_append, List.length_cons,
      ← Nat.add_assoc]

theorem upTo_skip {n : Nat} (h : n ≤ l.rest.length) : l.upTo (l.skip n) = l.rest.take n := by
  rw [Lexer.upTo, Lexer.skip, Nat.min_eq_left h, Nat.add_sub_cancel_left]

theorem runOn_string {quote : Char} {body said : Text} (hq : quote = '\'' ∨ quote = '"')
    (hbody : Quoted quote body said) (h : l.rest = quote :: (body ++ [quote]) ++ y) :
    runOn (string quote) c l = (.ok (.string said (quote :: (body ++ [quote]))),
      l.skip (quote :: (body ++ [quote])).length) := by
  have hlength : l.rest.length = body.length + 2 + y.length := by
    rw [h]
    simp
    omega
  have hrest : (l.skip 1).rest = body ++ quote :: y :=
    Lexer.rest_skip_of_append (t := [quote]) (by simpa using h) rfl
  unfold string
  refine runOn_then runOn_lexer (runOn_then (runOn_skip 1) ?_)
  rw [runOn_stringRest hq hbody _ _ hrest (by omega), Lexer.skip_skip]
  have hraw : l.upTo (l.skip (1 + (body.length + 1))) = quote :: (body ++ [quote]) := by
    rw [upTo_skip (by omega), h]
    have hsize : 1 + (body.length + 1) = (quote :: (body ++ [quote])).length := by simp; omega
    rw [hsize, List.take_left]
  rw [hraw]
  simp only [List.nil_append, List.length_cons, List.length_append, List.length_nil]
  congr 2
  omega

end Read

/-! ## Tokens -/

/-- Marks of one character that no other mark starts with. -/
def Mark.ofChar? : Char → Option Mark
  | '(' => some .parenOpen
  | ')' => some .parenClose
  | '[' => some .bracketOpen
  | ']' => some .bracketClose
  | '\x7b' => some .braceOpen
  | '\x7d' => some .braceClose
  | ':' => some .colon
  | ',' => some .comma
  | ';' => some .semicolon
  | _ => none

/-- How a token is spelled in front of a text. -/
inductive Spelled (y : Text) : Token → Text → Prop
  | word {n : Text} (hn : IsWordText n) (hy : EndsWord y) : Spelled y (wordToken n) n
  | string {raw value : Text} (h : IsString raw value) : Spelled y (.string value raw) raw
  | mark {ch : Char} {m : Mark} (h : Mark.ofChar? ch = some m) : Spelled y (.mark m) [ch]
  | star (hy : y.head?.all (fun ch => ch != '*' && ch != '=') = true) :
      Spelled y (.mark (.op .mul)) ['*']
  | dot (hy : y.head?.all (fun ch => ch != '.' && !Text.isDigit ch) = true) :
      Spelled y (.mark .dot) ['.']
  | assign (hy : y.head?.all (fun ch => ch != '=' && ch != '>') = true) :
      Spelled y (.mark (.assign .plain)) ['=']

/-- The text starts with the token, blanks and comments before it or not, and the other text
follows. -/
def Leads (x : Text) (t : Token) (y : Text) : Prop :=
  ∃ gap w, Gap gap ∧ Spelled y t w ∧ x = gap ++ (w ++ y)

/-- Whether a token that starts with the character may stand anywhere: no comment, no mark of a
conflict and no tag starts so. -/
def isPlainStart (ch : Char) : Bool :=
  !isSpace ch && !(text "/<>|-#\x00").contains ch

/-- A mark that divides the versions of a conflict has more equals signs than one. -/
def NotDivider (x : Text) : Prop := x.head? = some '=' → x[1]? ≠ some '='

theorem isBlank_of_isNamePart {ch : Char} (h : Text.isNamePart ch = true) :
    Text.isBlank ch = false := by
  have hcodes : ∀ k ∈ [0x20, 0x09, 0x0B, 0x0C, 0x85, 0xA0, 0x1680, 0x2000, 0x2001, 0x2002, 0x2003,
      0x2004, 0x2005, 0x2006, 0x2007, 0x2008, 0x2009, 0x200A, 0x202F, 0x205F, 0x3000, 0xFEFF],
      Text.isNamePart (Char.ofNat k) = false := by decide +kernel
  cases hb : Text.isBlank ch with
  | false => rfl
  | true =>
    have hcode := hcodes ch.toNat (by simp [Text.isBlank] at hb ⊢; omega)
    rw [Char.ofNat_toNat, h] at hcode
    cases hcode

theorem ne_of_isNameStart {ch d : Char} (h : Text.isNameStart ch = true)
    (hd : Text.isNameStart d = false) : ch ≠ d := by
  rintro rfl
  rw [h] at hd
  cases hd

theorem isDigit_of_isNameStart {ch : Char} (h : Text.isNameStart ch = true) :
    Text.isDigit ch = false := by
  have hcodes : ∀ k ∈ [48, 49, 50, 51, 52, 53, 54, 55, 56, 57],
      Text.isNameStart (Char.ofNat k) = false := by decide +kernel
  cases hd : Text.isDigit ch with
  | false => rfl
  | true =>
    have hcode := hcodes ch.toNat (by
      simp only [Text.isDigit, Bool.and_eq_true, decide_eq_true_eq, Char.le_def] at hd
      have hlow : 48 ≤ ch.toNat := hd.1
      have hhigh : ch.toNat ≤ 57 := hd.2
      simp
      omega)
    rw [Char.ofNat_toNat, h] at hcode
    cases hcode

theorem isPlainStart_of_isNamePart {ch : Char} (h : Text.isNamePart ch = true) :
    isPlainStart ch = true := by
  have hmarks : (text "/<>|-#\x00").all (fun d => !Text.isNamePart d) = true := by decide +kernel
  have hend : Text.isLineEnd ch = false := by
    cases he : Text.isLineEnd ch with
    | false => rfl
    | true =>
      simp only [Text.isLineEnd, Bool.or_eq_true, beq_iff_eq] at he
      rcases he with ((rfl | rfl) | rfl) | rfl <;> exact absurd h (by decide +kernel)
  unfold isPlainStart isSpace
  rw [isBlank_of_isNamePart h, hend]
  simpa using fun hd => absurd (List.all_eq_true.mp hmarks ch hd) (by simp [h])

theorem isPlainStart_of_isNameStart {ch : Char} (h : Text.isNameStart ch = true) :
    isPlainStart ch = true := isPlainStart_of_isNamePart (Text.isNamePart_of_isNameStart h)

theorem notDivider_of_ne {ch : Char} {rest : Text} (h : ch ≠ '=') : NotDivider (ch :: rest) :=
  fun hhead => absurd (Option.some.inj hhead) h

theorem notDivider_of_isNamePart {ch : Char} {rest : Text} (h : Text.isNamePart ch = true) :
    NotDivider (ch :: rest) := by
  refine notDivider_of_ne ?_
  rintro rfl
  exact absurd h (by decide)

theorem Spelled.cons {t : Token} {w : Text} (h : Spelled y t w) :
    ∃ ch rest, w = ch :: rest ∧ isPlainStart ch = true ∧ NotDivider (ch :: rest ++ y) := by
  cases h with
  | word hn hy =>
    cases w with
    | nil => simp [IsWordText] at hn
    | cons ch rest =>
      have hch : Text.isNameStart ch = true := by simpa using hn.1
      exact ⟨ch, rest, rfl, isPlainStart_of_isNameStart hch,
        notDivider_of_isNamePart (Text.isNamePart_of_isNameStart hch)⟩
  | string h =>
    obtain ⟨quote, body, hq, -, rfl⟩ := h
    refine ⟨quote, body ++ [quote], rfl, ?_, notDivider_of_ne ?_⟩
    all_goals rcases hq with rfl | rfl <;> decide
  | @mark ch m h =>
    unfold Mark.ofChar? at h
    split at h
    all_goals first
      | exact ⟨_, [], rfl, by decide, notDivider_of_ne (by decide)⟩
      | cases h
  | star hy => exact ⟨'*', [], rfl, by decide, notDivider_of_ne (by decide)⟩
  | dot hy => exact ⟨'.', [], rfl, by decide, notDivider_of_ne (by decide)⟩
  | assign hy =>
    refine ⟨'=', [], rfl, by decide, fun _ => ?_⟩
    cases y with
    | nil => exact nofun
    | cons d y => simp_all

/-! ## The next token -/

def Enclosure.isCalm : Enclosure → Bool
  | blockBrace | exprBrace | stmtParen _ | exprParen | functionExpr | classExpr => true
  | templateBrace | template | openingTag | closingTag | tagContent => false

namespace Lexer

/-- No template and no tag encloses the next token. -/
def Calm (l : Lexer) : Prop := ∀ e ∈ l.enclosures, e.isCalm = true

theorem Calm.enclosure_ne {e : Enclosure} (h : l.Calm) (he : e.isCalm = false) :
    (l.enclosure == some e) = false := by
  unfold Lexer.enclosure
  cases hes : l.enclosures with
  | nil => rfl
  | cons e' es =>
    have he' := h e' (hes ▸ List.mem_cons_self)
    simp only [List.head?_cons, beq_eq_false_iff_ne, ne_eq, Option.some.injEq]
    rintro rfl
    rw [he] at he'
    cases he'

theorem Calm.of_kept (h : l.Calm) (hkept : l.Kept l') : l'.Calm := fun e he =>
  h e (hkept.enclosures ▸ he)

/-- In a source of `n` characters of which these errors were noted, the lexer is to read the text. -/
structure Faces (l : Lexer) (t : Text) (n : Nat) (errors : List SyntaxError) : Prop where
  rest : l.rest = t
  regexFrom : l.regexFrom = none
  calm : l.Calm
  size : l.stop - l.origin = n
  fits : t.length ≤ n
  place : l.position + t.length = n + 1
  errors : l.record.errors = errors

end Lexer

namespace Read

theorem tokenFrom_of_isNameStart {ch : Char} (h : Text.isNameStart ch = true) :
    runOn (tokenFrom ch) c l = runOn word c l := by
  have hne : ∀ d : Char, Text.isNameStart d = false → ch ≠ d := fun d => ne_of_isNameStart h
  unfold tokenFrom
  refine runOn_then runOn_lexer ?_
  split
  · next m hm =>
    unfold plainMark? at hm
    split at hm
    all_goals first | exact absurd rfl (hne _ (by decide)) | cases hm
  · split
    all_goals first | exact absurd rfl (hne _ (by decide)) | skip
    dsimp only
    rw [isDigit_of_isNameStart h, h]
    rfl

theorem runOn_tokenFrom {t : Token} {ch : Char} {w : Text} (hw : Spelled y t (ch :: w))
    (h : l.rest = ch :: w ++ y) :
    runOn (tokenFrom ch) c l = (.ok t, l.skip (ch :: w).length) := by
  generalize hw' : ch :: w = full at hw
  cases hw with
  | word hn hy =>
    subst hw'
    rw [tokenFrom_of_isNameStart (by simpa using hn.1)]
    exact runOn_word hn hy h
  | string hstring =>
    obtain ⟨quote, body, hq, hbody, rfl⟩ := hstring
    obtain ⟨rfl, rfl⟩ := List.cons.inj hw'
    rw [← runOn_string hq hbody h]
    rcases hq with rfl | rfl <;> rfl
  | @mark ch m hm =>
    obtain ⟨rfl, rfl⟩ := List.cons.inj hw'
    unfold Mark.ofChar? at hm
    split at hm
    all_goals cases hm
    all_goals rfl
  | star hy =>
    obtain ⟨rfl, rfl⟩ := List.cons.inj hw'
    have hdoubled : (l.rest[1]? == some '*') = false ∧ (l.rest[1]? == some '=') = false := by
      rw [h]
      cases y with
      | nil => exact ⟨rfl, rfl⟩
      | cons d y => simpa using hy
    change runOn (doubled '*' .mul .exp) c l = _
    unfold doubled
    refine runOn_then runOn_lexer ?_
    dsimp only
    rw [hdoubled.1, hdoubled.2]
    rfl
  | dot hy =>
    obtain ⟨rfl, rfl⟩ := List.cons.inj hw'
    have hnumber : (l.rest[1]?.any Text.isDigit) = false ∧ (l.rest[1]? == some '.') = false := by
      rw [h]
      cases y with
      | nil => exact ⟨rfl, rfl⟩
      | cons d y => simp_all
    unfold tokenFrom
    refine runOn_then runOn_lexer ?_
    dsimp only [plainMark?]
    rw [hnumber.1, hnumber.2]
    rfl
  | assign hy =>
    obtain ⟨rfl, rfl⟩ := List.cons.inj hw'
    have hlonger : (l.rest[1]? == some '=') = false ∧ (l.rest[1]? == some '>') = false := by
      rw [h]
      cases y with
      | nil => exact ⟨rfl, rfl⟩
      | cons d y => simpa using hy
    unfold tokenFrom
    refine runOn_then runOn_lexer ?_
    dsimp only [plainMark?]
    rw [hlonger.1, hlonger.2]
    rfl

theorem runOn_token {ch : Char} {rest : Text} (hch : isPlainStart ch = true)
    (hdivider : NotDivider (ch :: rest)) (h : l.rest = ch :: rest) (n : Nat) :
    runOn (token (n + 1)) c l = runOn (do return some (← tokenFrom ch)) c l := by
  have hne : ∀ d ∈ text "/<>|-#\x00", ch ≠ d := by
    rintro d hd rfl
    simp [isPlainStart, hd] at hch
  have hstarts (d : Char) (more : Text) (hd : d ∈ text "/<>|-#\x00") :
      (d :: more).isPrefixOf (ch :: rest) = false := by
    simp [List.isPrefixOf, (hne d hd).symm]
  have hequals : (text "=======").isPrefixOf (ch :: rest) = false := by
    rw [Bool.eq_false_iff]
    intro hprefix
    obtain ⟨more, heq⟩ := List.isPrefixOf_iff_prefix.mp hprefix
    rw [← heq] at hdivider
    exact hdivider rfl rfl
  have hmarks : (conflictMarks c).find? (·.1.isPrefixOf (ch :: rest)) = none := by
    rw [List.find?_eq_none]
    intro mark hmark
    have hmark : mark ∈ [("=======", 7), ("<<<<<<< ", 7), ("<<=<<<<< ", 8), (">>>>>>> ", 8),
        (">>>=>>>> ", 9)].map fun mark => (text mark.1, mark.2) := by
      revert hmark
      unfold conflictMarks
      cases splitsAngles c <;> simp +contextual
    simp only [List.map_cons, List.map_nil, List.mem_cons, List.not_mem_nil, or_false] at hmark
    rcases hmark with rfl | rfl | rfl | rfl | rfl
    · exact Bool.eq_false_iff.mp hequals
    all_goals exact Bool.eq_false_iff.mp (hstarts _ _ (by decide))
  have hconflict : runOn conflictMark? c l = (.ok false, l) := by
    unfold conflictMark?
    refine runOn_then runOn_lexer ?_
    cases l.lineBreak with
    | false => rfl
    | true =>
      refine runOn_then rfl ?_
      rw [h, hmarks]
      rfl
  have hdivider : runOn atConflictDivider c l = (.ok false, l) := by
    refine runOn_then runOn_lexer ?_
    cases l.lineBreak with
    | false => rfl
    | true =>
      have hbars : (text "||||||| ").isPrefixOf l.rest = false := h ▸ hstarts _ _ (by decide)
      refine runOn_then (a := false) ?_ rfl
      exact congrArg (fun b => (Except.ok b, l)) hbars
  unfold token
  refine runOn_then rfl (runOn_then runOn_lexer (runOn_then hconflict ?_))
  rw [if_neg Bool.false_ne_true, h]
  split
  · next heq => cases heq
  · next heq => exact absurd (List.cons.inj heq).1 (hne _ (by decide))
  · next heq => exact absurd (List.cons.inj heq).1 (hne _ (by decide))
  · next heq => exact absurd (List.cons.inj heq).1 (hne _ (by decide))
  · next d more _ _ _ heq =>
    obtain ⟨rfl, rfl⟩ := List.cons.inj heq
    exact runOn_then hdivider rfl

def afterSpaceIn (c : Context) : Read (Option Token) := do
  let l ← lexer
  if l.rest.isEmpty then
    modify (·.handOver)
    return none
  if c.dialect.tags && !c.inPropertyName && !c.inType then
    if l.enclosure == some .tagContent then return ← contentToken
    match ← tagToken? with
    | some t => return some t
    | none => pure ()
  if l.enclosure == some .template then return some (← templatePart)
  anyToken

def afterSpace : Read (Option Token) := do afterSpaceIn (← read)

def started (l : Lexer) : Lexer :=
  { l with tokenStart := l.position, lineBreak := l.atStart, atStart := false }

def spaced (c : Context) (l : Lexer) : Lexer :=
  { (started l).skipSpace c with tokenStart := ((started l).skipSpace c).position }

theorem runOn_nextToken (hregex : l.regexFrom = none) (hcalm : l.Calm)
    (hhash : ∀ more, l.rest ≠ '#' :: '!' :: more) :
    runOn nextToken c l = runOn afterSpace c (spaced c l) := by
  have hhashbang : runOn hashbang? c { l with tokenStart := l.position } =
      (.ok none, { l with tokenStart := l.position }) := by
    refine runOn_then runOn_lexer ?_
    split
    · next more heq => exact absurd heq (hhash more)
    · rfl
  have hbelong : ((l.enclosure.map (·.keepsBlanks)).getD false) = false := by
    unfold Lexer.enclosure
    cases hes : l.enclosures with
    | nil => rfl
    | cons e es =>
      have he := hcalm e (hes ▸ List.mem_cons_self)
      cases e <;> first | rfl | cases he
  unfold nextToken
  refine runOn_then rfl (runOn_then runOn_lexer ?_)
  rw [hregex]
  refine runOn_then rfl ?_
  dsimp only
  rw [hbelong]
  by_cases hstart : l.atStart = true
  · rw [if_pos hstart]
    refine runOn_then hhashbang (runOn_then rfl ?_)
    exact runOn_then rfl (runOn_then rfl rfl)
  · rw [if_neg hstart]
    refine runOn_then rfl ?_
    exact runOn_then rfl (runOn_then rfl rfl)

theorem runOn_afterSpace {ch : Char} {rest : Text} (hcalm : l.Calm) (hch : isPlainStart ch = true)
    (h : l.rest = ch :: rest) : runOn afterSpace c l = runOn anyToken c l := by
  have hless : (ch == '<') = false := by
    cases heq : ch == '<' with
    | false => rfl
    | true =>
      rw [beq_iff_eq.mp heq] at hch
      revert hch
      decide
  have htag : runOn tagToken? c l = (.ok none, l) := by
    refine runOn_then runOn_lexer ?_
    rw [h]
    dsimp only
    rw [hcalm.enclosure_ne (e := .openingTag) rfl, hcalm.enclosure_ne (e := .closingTag) rfl,
      if_neg (by simp), hless]
    rfl
  unfold afterSpace afterSpaceIn
  refine runOn_then rfl (runOn_then runOn_lexer ?_)
  dsimp only
  rw [hcalm.enclosure_ne (e := .tagContent) rfl, hcalm.enclosure_ne (e := .template) rfl, h]
  split
  · next hempty => cases hempty
  · split
    · exact runOn_then htag rfl
    · rfl

end Read

/-! ## Behind a gap -/

theorem opensToken_of_isPlainStart {ch : Char} {rest : Text} (hch : isPlainStart ch = true) :
    Lexer.OpensToken (ch :: rest) := by
  have hslash : ch ≠ '/' := by
    rintro rfl
    revert hch
    decide
  refine ⟨by simp_all [isPlainStart, Unspaced], ?_, ?_⟩ <;>
    exact fun hin => hslash (List.cons_prefix_cons.mp hin).1.symm

theorem kept_spaced (h : (Read.started l).Kept ((Read.started l).skipSpace c)) :
    l.Kept (Read.spaced c l) :=
  ⟨h.enclosures, h.regexFrom, h.record, h.origin, h.stop, h.length⟩

theorem Gap.passed {gap rest : Text} {ch : Char} (hgap : Gap gap) (hch : isPlainStart ch = true)
    (h : l.rest = gap ++ ch :: rest) :
    (Read.spaced c l).rest = ch :: rest ∧ l.Kept (Read.spaced c l) :=
  have hspace := Lexer.skipSpace_gap (c := c) (l := Read.started l) hgap
    (opensToken_of_isPlainStart hch) h
  ⟨hspace.1, kept_spaced hspace.2⟩

theorem LastGap.passed (h : LastGap y) (hl : l.rest = y) :
    (Read.spaced c l).rest = [] ∧ l.Kept (Read.spaced c l) :=
  have hspace := Lexer.skipSpace_lastGap (c := c) (l := Read.started l) (hl ▸ h)
  ⟨hspace.1, kept_spaced hspace.2⟩

theorem Gap.not_hashbang {gap rest : Text} {ch : Char} (hgap : Gap gap)
    (hch : isPlainStart ch = true) (h : l.rest = gap ++ ch :: rest) :
    ∀ more, l.rest ≠ '#' :: '!' :: more := by
  intro more heq
  rw [heq] at h
  cases hgaps : gap with
  | nil =>
    rw [hgaps] at h
    rw [← (List.cons.inj h).1] at hch
    revert hch
    decide
  | cons d gap =>
    rw [hgaps] at h
    obtain ⟨rfl, -⟩ := List.cons.inj h
    exact absurd (hgap.head hgaps) (by decide)

theorem LastGap.not_hashbang (h : LastGap y) (hl : l.rest = y) :
    ∀ more, l.rest ≠ '#' :: '!' :: more := by
  intro more heq
  rw [hl] at heq
  have hhead := h.head heq
  revert hhead
  decide

namespace Lexer

theorem mem_of_mem_close {es : List Enclosure} {e : Enclosure} (h : e ∈ (close es).1) : e ∈ es := by
  unfold close at h
  split at h
  · exact h
  · exact h
  · split at h <;> simp_all

theorem Calm.enclose {t : Token} {w : Text} (h : l.Calm) (ht : Spelled y t w) (start : Nat) :
    ∀ e ∈ (l.enclose start t).1, e.isCalm = true := by
  have hpush {e : Enclosure} (he : e.isCalm = true) : ∀ e' ∈ e :: l.enclosures, e'.isCalm = true := by
    simpa using ⟨he, h⟩
  cases ht with
  | @word n hn hy =>
    unfold wordToken Lexer.enclose
    split
    · next k _ =>
      dsimp only
      split
      · exact h
      · split
        · exact h
        · split
          · split
            · exact hpush (by split <;> rfl)
            · exact h
          · exact h
    · dsimp only
      split
      · exact h
      · split <;> exact h
  | string hstring => exact h
  | @mark ch m hm =>
    unfold Mark.ofChar? at hm
    split at hm
    all_goals cases hm
    · -- An opening parenthesis: the keyword before it decides what it encloses.
      unfold Lexer.enclose
      dsimp only
      split <;> exact hpush rfl
    · exact fun e he => h e (mem_of_mem_close he)
    · exact h
    · exact h
    · unfold Lexer.enclose
      dsimp only
      rw [h.enclosure_ne (e := .openingTag) rfl, h.enclosure_ne (e := .tagContent) rfl]
      exact hpush (by cases l.opensBlock <;> rfl)
    · exact fun e he => h e (mem_of_mem_close he)
    · unfold Lexer.enclose
      dsimp only
      split
      · next hes => exact fun e he => h e (hes ▸ List.mem_cons_of_mem _ he)
      · next hes => exact fun e he => h e (hes ▸ List.mem_cons_of_mem _ he)
      · exact h
    · exact h
    · exact h
  | star hy => exact h
  | dot hy => exact h
  | assign hy => exact h

/-- The lexer behind a token, when the comments that waited for it have been placed before it. -/
def led (after : Lexer) : Lexer :=
  { after with
    pending := []
    placed := after.placed ++ after.pending.map (PlacedComment.mk .leading after.tokenStart) }

theorem next_of_runOn {t : Token} {after : Lexer}
    (h : Read.runOn Read.nextToken c l = (.ok (some t), after)) :
    l.next c = (some ⟨t, ⟨after.tokenStart, after.position⟩, after.lineBreak⟩,
      (led after).remember after.tokenStart t) := by
  unfold Lexer.next
  unfold Read.runOn at h
  rw [h]
  rfl

theorem hi_of_next {p : PlacedToken} {l' : Lexer} (h : l.next c = (some p, l')) :
    p.span.hi = l'.position := by
  unfold Lexer.next at h
  generalize ((Read.nextToken.run c).run).run l = outcome at h
  obtain ⟨_ | t?, after⟩ := outcome
  · cases h
    rfl
  · cases t? with
    | none => cases h
    | some t =>
      cases h
      rfl

theorem runOn_nextToken_gap {gap rest : Text} {ch : Char} {n : Nat} {errors : List SyntaxError}
    (hl : l.Faces (gap ++ ch :: rest) n errors) (hgap : Gap gap) (hch : isPlainStart ch = true)
    (hdivider : NotDivider (ch :: rest)) :
    Read.runOn Read.nextToken c l =
      Read.runOn (do return some (← Read.tokenFrom ch)) c (Read.spaced c l) := by
  have hspace := hgap.passed (c := c) hch hl.rest
  rw [Read.runOn_nextToken hl.regexFrom hl.calm (hgap.not_hashbang hch hl.rest),
    Read.runOn_afterSpace (hl.calm.of_kept hspace.2) hch hspace.1]
  unfold Read.anyToken
  exact Read.runOn_then Read.runOn_lexer (Read.runOn_token hch hdivider hspace.1 _)

/-- In a calm place the next token is the one that the text starts with. -/
theorem next_of_leads {x : Text} {t : Token} {n : Nat} {errors : List SyntaxError}
    (hl : l.Faces x n errors) (h : Leads x t y) :
    ∃ span lineBreak l', l.next c = (some ⟨t, span, lineBreak⟩, l') ∧ l'.Faces y n errors := by
  obtain ⟨gap, w, hgap, hw, rfl⟩ := h
  obtain ⟨ch, w, rfl, hch, hdivider⟩ := hw.cons
  have hspace := hgap.passed (c := c) hch hl.rest
  have hrun : Read.runOn Read.nextToken c l =
      (.ok (some t), (Read.spaced c l).skip (ch :: w).length) := by
    rw [runOn_nextToken_gap hl hgap hch hdivider]
    exact Read.runOn_then (Read.runOn_tokenFrom hw hspace.1) rfl
  have hafter : l.Kept ((Read.spaced c l).skip (ch :: w).length) := hspace.2.trans (.skip _ _)
  have hcalm : ((Read.spaced c l).skip (ch :: w).length).Calm := hl.calm.of_kept hafter
  exact ⟨_, _, _, next_of_runOn hrun, {
    rest := rest_skip_of_append hspace.1 rfl
    regexFrom := hafter.regexFrom.trans hl.regexFrom
    calm := Calm.enclose (l := led _) hcalm hw _
    size := by
      rw [← hl.size, ← hafter.stop, ← hafter.origin]
      rfl
    fits := by
      have hfits := hl.fits
      simp only [List.length_append] at hfits
      omega
    place := by
      have hplace := hafter.length
      rw [rest_skip_of_append hspace.1 rfl, hl.rest, hl.place] at hplace
      exact hplace
    errors := (congrArg Record.errors hafter.record).trans hl.errors }⟩

theorem next_of_lastGap {x : Text} {n : Nat} {errors : List SyntaxError}
    (hl : l.Faces x n errors) (h : LastGap x) :
    ∃ l', l.next c = (none, l') ∧ l'.Faces [] n errors := by
  have hspace := h.passed (c := c) hl.rest
  have hrun : Read.runOn Read.nextToken c l = (.ok none, (Read.spaced c l).handOver) := by
    rw [Read.runOn_nextToken hl.regexFrom hl.calm (h.not_hashbang hl.rest)]
    unfold Read.afterSpace
    refine Read.runOn_then rfl (Read.runOn_then Read.runOn_lexer ?_)
    rw [hspace.1]
    rfl
  have hcalm : (Read.spaced c l).Calm := hl.calm.of_kept hspace.2
  refine ⟨(Read.spaced c l).handOver, ?_, ?_⟩
  · unfold Lexer.next
    unfold Read.runOn at hrun
    rw [hrun]
  · exact {
      rest := hspace.1
      regexFrom := hspace.2.regexFrom.trans hl.regexFrom
      calm := hcalm
      size := by
        rw [← hl.size, ← hspace.2.stop, ← hspace.2.origin]
        rfl
      fits := Nat.zero_le n
      place := by
        have hplace := hspace.2.length
        rw [hspace.1, hl.rest, hl.place] at hplace
        exact hplace
      errors := (congrArg Record.errors hspace.2.record).trans hl.errors }

end Lexer

theorem Leads.not_lastGap {x : Text} {t : Token} (h : Leads x t y) : ¬ LastGap x := by
  intro hgap
  have hl : (Lexer.ofSource x 1).Faces x x.length [] :=
    ⟨rfl, rfl, by simp [Lexer.Calm, Lexer.ofSource, Enclosure.isCalm], Nat.add_sub_cancel_left 1 _,
      Nat.le_refl _, Nat.add_comm 1 _, rfl⟩
  obtain ⟨_, _, _, hnext, -⟩ := Lexer.next_of_leads (c := { dialect := .plain }) hl h
  obtain ⟨_, hend, -⟩ := Lexer.next_of_lastGap (c := { dialect := .plain }) hl hgap
  cases hend.symm.trans hnext
end InlineTemplates.Script
