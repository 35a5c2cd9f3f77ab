import InlineTemplates.Proofs.ImportText.Printing
import InlineTemplates.Proofs.ImportText.Refusing
import InlineTemplates.Proofs.ReadBack

/-! # Quotes of imports

A refused import is quoted. What is quoted is the import, however it is written. An import that
stands nowhere is quoted as it is printed, and that is the import unless its print leaves out the
braces that its words need. -/

namespace InlineTemplates.Script

/-! ## Ends of texts -/

section Ends

variable {q : Char} {t u gap : Text}

theorem dropWhile_reverse_append_cons (p : Char → Bool) (hq : p q = false) :
    (((t ++ q :: u).reverse.dropWhile p).reverse) = t ++ q :: (u.reverse.dropWhile p).reverse := by
  have hreverse : (t ++ q :: u).reverse = u.reverse ++ q :: t.reverse := by simp
  rw [hreverse, List.dropWhile_append, List.dropWhile_cons_of_neg (by simp [hq])]
  cases hall : u.reverse.dropWhile p with
  | nil => simp
  | cons c rest => simp

theorem trimEnd_append_cons (hq : Text.isWhite q = false) :
    Text.trimEnd (t ++ q :: u) = t ++ q :: Text.trimEnd u := dropWhile_reverse_append_cons _ hq

theorem dropTrailing_append_cons {c : Char} (hq : (q == c) = false) :
    Text.dropTrailing c (t ++ q :: u) = t ++ q :: Text.dropTrailing c u :=
  dropWhile_reverse_append_cons _ hq

theorem Gap.getLast (h : Gap gap) : ∀ c ∈ gap.getLast?, isSpace c = true ∨ c = '/' := by
  induction h with
  | blanks hrun => exact fun c hc => .inl (hrun c (List.mem_of_getLast? hc))
  | @line run content gap hrun hcontent hclosed hgap ih =>
    intro c hc
    cases gap with
    | nil => cases hclosed
    | cons first rest =>
      rw [List.getLast?_append_of_ne_nil _ (List.cons_ne_nil _ _)] at hc
      exact ih c hc
  | @block run content gap hrun hcontent hgap ih =>
    intro c hc
    cases gap with
    | nil =>
      have hclosed : run ++ ('/' :: '*' :: content ++ ['*', '/']) ++ [] =
          (run ++ '/' :: '*' :: content ++ ['*']) ++ ['/'] := by simp
      rw [hclosed, List.getLast?_concat] at hc
      exact .inr (Option.some.inj hc).symm
    | cons first rest =>
      rw [List.getLast?_append_of_ne_nil _ (List.cons_ne_nil _ _)] at hc
      exact ih c hc

theorem Gap.getLast?_ne_semicolon (h : Gap gap) (hq : q = '\'' ∨ q = '"') :
    (t ++ q :: gap).getLast? ≠ some ';' := by
  intro hlast
  rw [List.getLast?_append_of_ne_nil _ (List.cons_ne_nil _ _)] at hlast
  cases gap with
  | nil =>
    obtain rfl : q = ';' := Option.some.inj hlast
    exact absurd hq (by decide)
  | cons c gap =>
    rw [List.getLast?_cons_cons] at hlast
    rcases h.getLast ';' hlast with hspace | hslash
    · exact absurd hspace (by decide)
    · exact absurd hslash (by decide)

theorem dropTrailing_gap (h : Gap gap) : Text.dropTrailing ';' (gap ++ [';']) = gap := by
  have hlast : gap.getLast? ≠ some ';' := by
    intro heq
    rcases h.getLast ';' heq with hspace | hslash
    · revert hspace
      decide
    · revert hslash
      decide
  unfold Text.dropTrailing
  rw [List.reverse_append, List.reverse_singleton, List.singleton_append,
    List.dropWhile_cons_of_pos (by simp)]
  rw [← List.head?_reverse] at hlast
  cases hreverse : gap.reverse with
  | nil => simpa using hreverse.symm
  | cons c rest =>
    rw [hreverse] at hlast
    rw [List.dropWhile_cons_of_neg (by simpa using hlast), ← hreverse, List.reverse_reverse]

theorem trimEnd_append (t u : Text) : Text.trimEnd (t ++ u) =
    if (Text.trimEnd u).isEmpty then Text.trimEnd t else t ++ Text.trimEnd u := by
  unfold Text.trimEnd
  rw [List.reverse_append, List.dropWhile_append, List.isEmpty_reverse]
  split
  · rfl
  · rw [List.reverse_append, List.reverse_reverse]

theorem getLast?_trimEnd (t : Text) : ∀ c ∈ (Text.trimEnd t).getLast?, Text.isWhite c = false := by
  intro c hc
  rw [Text.trimEnd, List.getLast?_reverse] at hc
  have h := List.head?_dropWhile_not Text.isWhite t.reverse
  rw [Option.mem_def.mp hc] at h
  simpa using h

theorem mem_of_mem_trimEnd {c : Char} (h : c ∈ Text.trimEnd t) : c ∈ t := by
  rw [Text.trimEnd, List.mem_reverse] at h
  exact List.mem_reverse.mp ((List.dropWhile_suffix _).subset h)

theorem trimEnd_prefix (t : Text) : Text.trimEnd t <+: t := by
  have h : t.reverse.dropWhile Text.isWhite <:+ t.reverse := List.dropWhile_suffix _
  rw [← List.reverse_prefix, List.reverse_reverse] at h
  exact h

theorem Gap.trimEnd (h : Gap gap) : LastGap (Text.trimEnd gap) := by
  have hslash : Text.isWhite '/' = false := by decide
  induction h with
  | blanks hrun => exact .inl (.blanks fun c hc => hrun c (mem_of_mem_trimEnd hc))
  | @line run content gap hrun hcontent hclosed hgap ih =>
    rw [trimEnd_append]
    split
    · have htrim : Text.trimEnd (run ++ '/' :: '/' :: content) =
          run ++ '/' :: '/' :: Text.trimEnd content := by
        rw [trimEnd_append_cons hslash, ← List.nil_append ('/' :: content),
          trimEnd_append_cons hslash]
        rfl
      rw [htrim]
      exact .inr ⟨run, _, .blanks hrun, fun c hc => hcontent c (mem_of_mem_trimEnd hc), rfl⟩
    · next hnonempty =>
      -- What is left of the gap still starts with the end of the line.
      have hhead : (Text.trimEnd gap).head?.any Text.isLineEnd = true := by
        obtain ⟨rest, hrest⟩ := trimEnd_prefix gap
        cases htrim : Text.trimEnd gap with
        | nil => simp [htrim] at hnonempty
        | cons c left =>
          rw [htrim] at hrest
          rw [← hrest] at hclosed
          exact hclosed
      rcases ih with ih | ⟨before, last, hbefore, hlast, heq⟩
      · exact .inl (.line hrun hcontent hhead ih)
      · rw [heq] at hhead ⊢
        refine .inr ⟨run ++ ('/' :: '/' :: content) ++ before, last, ?_, hlast, by simp⟩
        refine .line hrun hcontent ?_ hbefore
        cases before with
        | nil => exact absurd (show Text.isLineEnd '/' = true from hhead) (by decide)
        | cons c before => exact hhead
  | @block run content gap hrun hcontent hgap ih =>
    rw [trimEnd_append]
    split
    · have htrim : Text.trimEnd (run ++ ('/' :: '*' :: content ++ ['*', '/'])) =
          run ++ ('/' :: '*' :: content ++ ['*', '/']) := by
        have hlast : run ++ ('/' :: '*' :: content ++ ['*', '/']) =
            (run ++ '/' :: '*' :: content ++ ['*']) ++ ['/'] := by simp
        rw [hlast, trimEnd_append_cons hslash]
        rfl
      rw [htrim, ← List.append_nil (run ++ _)]
      exact .inl (.block hrun hcontent .nil)
    · rcases ih with ih | ⟨before, last, hbefore, hlast, heq⟩
      · exact .inl (.block hrun hcontent ih)
      · rw [heq]
        exact .inr ⟨_, last, .block hrun hcontent hbefore, hlast, by simp⟩

end Ends

/-! ## Written imports -/

section Written

variable {d : Dialect} {x y y' rest : Text} {t : Token} {value raw : Text} {i : ImportSyntax}

theorem Spelled.of_head?_eq {w : Text} (h : Spelled y t w) (hy : y.head? = y'.head?) :
    Spelled y' t w := by
  cases h with
  | word hn hends => exact .word hn (by rwa [EndsWord, ← hy])
  | string hstring => exact .string hstring
  | mark hmark => exact .mark hmark
  | star hnext => exact .star (by rwa [← hy])
  | dot hnext => exact .dot (by rwa [← hy])
  | assign hnext => exact .assign (by rwa [← hy])

theorem Spelled.of_string {w : Text} (h : Spelled y (.string value raw) w) :
    IsString raw value ∧ w = raw := by
  generalize ht : Token.string value raw = t at h
  cases h with
  | word => exact absurd ht.symm (wordToken_ne_string _ _ _)
  | string hstring =>
    obtain ⟨rfl, rfl⟩ := Token.string.inj ht
    exact ⟨hstring, rfl⟩
  | _ => cases ht

theorem Lexes.exists_quote {ts : List Token} (h : Lexes x (ts ++ [.string value raw]) rest) :
    ∃ before quote, x = before ++ quote :: rest ∧ (quote = '\'' ∨ quote = '"') ∧
      ∀ rest', Lexes (before ++ quote :: rest') (ts ++ [.string value raw]) rest' := by
  induction ts generalizing x with
  | nil =>
    obtain ⟨_, ⟨gap, w, hgap, hw, rfl⟩, rfl⟩ := h
    obtain ⟨hstring, rfl⟩ := hw.of_string
    obtain ⟨quote, body, hquote, -, hraw⟩ := id hstring
    refine ⟨gap ++ quote :: body, quote, by simp [hraw], hquote, fun rest' => ?_⟩
    exact ⟨rest', ⟨gap, w, hgap, .string hstring, by simp [hraw]⟩, rfl⟩
  | cons u ts ih =>
    obtain ⟨z, ⟨gap, w, hgap, hw, rfl⟩, hrest⟩ := h
    obtain ⟨before, quote, rfl, hquote, hall⟩ := ih hrest
    refine ⟨gap ++ (w ++ before), quote, by simp, hquote, fun rest' => ?_⟩
    refine ⟨_, ⟨gap, w, hgap, hw.of_head?_eq ?_, by simp⟩, hall rest'⟩
    cases before <;> rfl

theorem ImportSyntax.tokens_eq : i.tokens = (wordToken (text "import") ::
    ((i.headTokens ++ i.defaultTokens) ++ (i.list.tokens ++
      if i.named then [wordToken (text "from")] else []))) ++ [.string i.value i.raw] := by
  simp [ImportSyntax.tokens, ImportSyntax.restTokens, List.append_assoc]

/-- The text is the import from its first word to its end, which may be a semicolon. This is asked of
the text by itself, however the import came to be read from it. -/
def ImportSyntax.Written (i : ImportSyntax) (x : Text) : Prop :=
  x.head? = some 'i' ∧
    ∃ rest, Lexes x i.tokens rest ∧ (rest = [] ∨ ∃ gap, Gap gap ∧ rest = gap ++ [';'])

theorem quoteOf_append_cons {before : Text} {quote : Char} (hquote : quote = '\'' ∨ quote = '"')
    (hhead : (before ++ quote :: rest).head? = some 'i') : quoteOf (before ++ quote :: rest) =
      before ++ quote :: Text.trimEnd (Text.dropTrailing ';' (Text.trimEnd rest)) := by
  have hwhite : Text.isWhite quote = false := by
    rcases hquote with rfl | rfl <;> decide
  have hsemicolon : (quote == ';') = false := by
    rcases hquote with rfl | rfl <;> decide
  have hstart : (before ++ quote :: rest).dropWhile Text.isWhite = before ++ quote :: rest := by
    cases hx : before ++ quote :: rest with
    | nil => rfl
    | cons c more =>
      rw [hx] at hhead
      obtain rfl := Option.some.inj hhead
      exact List.dropWhile_cons_of_neg (by decide)
  have htrim : Text.trim (before ++ quote :: rest) = before ++ quote :: Text.trimEnd rest := by
    rw [← trimEnd_append_cons hwhite]
    exact congrArg Text.trimEnd hstart
  rw [quoteOf, htrim, dropTrailing_append_cons hsemicolon, trimEnd_append_cons hwhite]

theorem ImportSyntax.Written.isEmpty_eq_false (h : i.Written x) : x.isEmpty = false := by
  cases x with
  | nil => cases h.1
  | cons c rest => rfl

theorem ImportSyntax.Written.quoteOf (h : i.Written x) :
    ∃ before quote gap, quoteOf x = before ++ quote :: gap ∧ (quote = '\'' ∨ quote = '"') ∧
      (before ++ quote :: gap).head? = some 'i' ∧ LastGap gap ∧
      Lexes (before ++ quote :: gap) i.tokens gap := by
  obtain ⟨hhead, rest, hlexes, hrest⟩ := h
  rw [i.tokens_eq] at hlexes
  obtain ⟨before, quote, rfl, hquote, hall⟩ := hlexes.exists_quote
  have hfirst (gap : Text) : (before ++ quote :: gap).head? = some 'i' := by
    cases before <;> exact hhead
  rw [quoteOf_append_cons hquote hhead, i.tokens_eq]
  rcases hrest with rfl | ⟨gap, hgap, rfl⟩
  · exact ⟨before, quote, [], rfl, hquote, hfirst _, Gap.nil.last, hall _⟩
  · have hlast : Text.trimEnd (gap ++ [';']) = gap ++ [';'] := trimEnd_append_cons (by decide)
    rw [hlast, dropTrailing_gap hgap]
    exact ⟨before, quote, _, rfl, hquote, hfirst _, hgap.trimEnd, hall _⟩

theorem quoteOf_plain (hi : i.Legal d) :
    quoteOf (Tree.plain false [] (.node (.module none) .nowhere [i.tree])) = i.printed.spelling ∧
      ∃ before quote, i.printed.spelling = before ++ [quote] ∧ (quote = '\'' ∨ quote = '"') := by
  have hlexes : Lexes i.printed.spelling i.printed.tokens [] := by
    simpa using lexes_spelling (y := []) hi
  rw [i.printed.tokens_eq] at hlexes
  obtain ⟨before, quote, hspelling, hquote, -⟩ := hlexes.exists_quote
  refine ⟨?_, before, quote, hspelling, hquote⟩
  have hhead : (before ++ quote :: text ";\n").head? = some 'i' := by
    have hstart : i.printed.spelling.head? = some 'i' := rfl
    rw [hspelling] at hstart
    cases before <;> exact hstart
  have hrest : Text.trimEnd (Text.dropTrailing ';' (Text.trimEnd (text ";\n"))) = [] := by decide
  rw [plain_import, hspelling, List.append_assoc, List.singleton_append,
    quoteOf_append_cons hquote hhead, hrest]

end Written

/-! ## Quotes that are read -/

section Quotes

variable {d : Dialect} {i : ImportSyntax} {x y rest : Text}

theorem withoutMark_of_head? {c : Char} (h : x.head? = some c) (hc : c ≠ '\uFEFF') :
    withoutMark x = x := by
  cases x with
  | nil => rfl
  | cons first more =>
    obtain rfl := Option.some.inj h
    exact withoutMark_cons _ _ hc

theorem readAs?_of_lexes (hi : i.Legal d) (h : Lexes x i.tokens rest) (hclose : Parse.Closes rest y)
    (hy : LastGap y) (hhead : x.head? = some 'i') :
    readAs? d x = some (.node (.module none) .nowhere [i.tree]) := by
  obtain ⟨program, hread, -, htree⟩ :=
    ofSource?_import hi h hclose hy (withoutMark_of_head? hhead (by decide))
  rw [readAs?, hread]
  exact congrArg some htree

theorem readAs?_of_refuses
    (h : Parse.Refuses (· = moduleContext d) (moduleContext d) x Parse.moduleTree)
    (hhead : x.head? = some 'i') : readAs? d x = none := by
  have hmark : withoutMark x = x := withoutMark_of_head? hhead (by decide)
  cases hread : Program.ofSource? d x with
  | error e => rw [readAs?, hread]; rfl
  | ok program =>
    obtain ⟨s, hrun, -⟩ := runOn_of_ofSource? hread hmark
    exact absurd hrun (h rfl _ _ _ (Parse.faces_startOf x) _ _)

/-- Words that say what is imported and when, before a module that nothing is taken from. -/
def ImportSyntax.NeedsBraces (i : ImportSyntax) : Prop := i.specifiers = [] ∧ i.headTokens ≠ []

theorem ImportSyntax.named_printed : i.printed.named = !i.specifiers.isEmpty := by
  obtain ⟨typeOnly, phase, default?, list, raw, value⟩ := i
  cases default? with
  | some n => rfl
  | none =>
    cases list with
    | named names comma => cases names <;> rfl
    | _ => rfl

theorem ImportList.legal_printed {list : ImportList} {typeOnly : Bool} (h : list.Legal d typeOnly) :
    list.printed.Legal d typeOnly := by
  cases list with
  | named names comma =>
    cases names with
    | nil => trivial
    | cons i more => exact h
  | _ => exact h

theorem ImportSyntax.Legal.printed (hi : i.Legal d) (hbraces : ¬ i.NeedsBraces) :
    i.printed.Legal d where
  types := hi.types
  default n hn := by
    refine ⟨(hi.default n hn).1, fun hfrom hwords => ?_⟩
    have hnone := (hi.default n hn).2 hfrom hwords
    change i.list.printed = .none
    rw [hnone]
    rfl
  list := ImportList.legal_printed hi.list
  bare hnamed := by
    rw [ImportSyntax.named_printed, Bool.not_eq_false', List.isEmpty_iff] at hnamed
    exact Decidable.byContradiction fun hwords => hbraces ⟨hnamed, hwords⟩
  source := hi.source

/-- What is printed of an import is read as the import, unless the braces are missing that its words
need. -/
theorem readAs?_spelling_iff (hi : i.Legal d) :
    readAs? d i.printed.spelling = some (.node (.module none) .nowhere [i.tree]) ↔
      ¬ i.NeedsBraces := by
  have hlexes : Lexes i.printed.spelling i.printed.tokens [] := by
    simpa using lexes_spelling (y := []) hi
  constructor
  · rintro hread ⟨hnothing, hwords⟩
    have hnamed : i.printed.named = false := by
      rw [ImportSyntax.named_printed, hnothing]
      rfl
    obtain ⟨w, himport, hrest⟩ := hlexes
    rw [i.printed.restTokens_of_bare hnamed] at hrest
    have hrefused := Parse.refuses_moduleTree (C := (· = moduleContext d)) hi.types hwords himport
      hrest Gap.nil.last
    rw [readAs?_of_refuses hrefused rfl] at hread
    cases hread
  · intro hbraces
    rw [← i.tree_printed]
    exact readAs?_of_lexes (hi.printed hbraces) hlexes (.inl ⟨Gap.nil.last, rfl⟩) Gap.nil.last rfl

end Quotes

end InlineTemplates.Script

namespace InlineTemplates

open Script (Tree Dialect ImportSyntax Gap quoteOf_plain readAs?_of_lexes readAs?_spelling_iff
  getLast?_trimEnd)

/-- Read as a module, the text is just that item, up to spans. -/
def ReadsAsItem (dialect : Dialect) (code : Text) (item : Tree) : Prop :=
  readAs? dialect code = some (.node (.module none) .nowhere [item.eraseSpans])

/-- **The quoted import is the import.** When an import is refused, what was used is quoted. The quote
of an import that is written in the source is read as the import; it ends in no white space, and in a
semicolon only if that is the end of a comment. The quote of an import that stands nowhere is what is
printed of it, which ends in neither; it is read as the import exactly if no word stands in front of
braces that are empty. This is said of legal imports: they have no attributes, and no escapes in their
words. That the import is one, and that its span is where it is written, is assumed. -/
theorem quoted_import_is_the_import {dialect : Dialect} {targets : List Target} {source : Text}
    {m : Tree} {span : Span} {required used : Text}
    (herror : trackImports targets source m = .error ⟨span, .importForm required used⟩) :
    ∃ item ∈ m.parts, item.span = span ∧
      ∀ i : ImportSyntax, i.Legal dialect → item.eraseSpans = i.tree →
        (i.Written (span.slice source) →
          ReadsAsItem dialect used item ∧ (∀ c ∈ used.getLast?, Text.isWhite c = false) ∧
          (used.getLast? = some ';' → ∃ code comment, used = code ++ text "//" ++ comment ∧
            ∀ c ∈ comment, Text.isLineEnd c = false)) ∧
        (item = i.tree →
          (ReadsAsItem dialect used item ↔ ¬ i.NeedsBraces) ∧
          ∀ c ∈ used.getLast?, Text.isWhite c = false ∧ c ≠ ';') := by
  obtain ⟨item, hrefused⟩ := of_trackImports_error herror
  have hitem := hrefused.mem
  cases hrefused
  refine ⟨item, hitem, rfl, fun i hi htree => ⟨fun hwritten => ?_, ?_⟩⟩
  · rw [usedSyntax_eq_quote, hwritten.isEmpty_eq_false, if_neg Bool.false_ne_true]
    obtain ⟨before, quote, gap, hused, hquote, hhead, hgap, hlexes⟩ := hwritten.quoteOf
    refine ⟨?_, getLast?_trimEnd _, fun hsemicolon => ?_⟩
    · rw [ReadsAsItem, hused, htree]
      exact readAs?_of_lexes hi hlexes (.inl ⟨hgap, rfl⟩) Gap.nil.last hhead
    · rw [hused] at hsemicolon ⊢
      rcases hgap with hgap | ⟨blanks, comment, -, hcomment, rfl⟩
      · exact absurd hsemicolon (hgap.getLast?_ne_semicolon hquote)
      · exact ⟨before ++ quote :: blanks, comment, by simp [text], hcomment⟩
  · rintro rfl
    obtain ⟨hprinted, before, quote, hspelling, hquote⟩ := quoteOf_plain hi
    have hslice : (i.tree.span.slice source).isEmpty = true := by
      change (Span.nowhere.slice source).isEmpty = true
      exact List.isEmpty_iff.mpr List.take_zero
    rw [usedSyntax_eq_quote, hslice, if_pos rfl, hprinted]
    refine ⟨?_, ?_⟩
    · rw [ReadsAsItem, htree]
      exact readAs?_spelling_iff hi
    · rw [hspelling, List.getLast?_concat]
      rintro _ ⟨⟩
      rcases hquote with rfl | rfl <;> decide

section

namespace Sample

def commentedSource : Text := text "import * as hbs /* all */\nfrom 'm' ;"

def commentedImport : ImportSyntax := ⟨false, .evaluation, none, .all tag, text "'m'", text "m"⟩

def commentedItem : Tree :=
  .item (.import false .evaluation) ⟨1, 37⟩
    [.list [.ofPart .importNamespace ⟨8, 16⟩ [.ofPart (.name tag) ⟨13, 16⟩ []]],
      .ofPart (.string (text "m") (some (text "'m'"))) ⟨32, 35⟩ [], .absent]

end Sample

open Sample

theorem legal_commentedImport : commentedImport.Legal .plain where
  types h := nomatch h
  default _ h := nomatch h
  list := (by decide : Script.Declarable tag)
  bare h := nomatch h
  source := ⟨'\'', ['m'], .inl rfl, .char (by decide) .nil, rfl⟩

theorem written_commentedImport : commentedImport.Written commentedSource := by
  have hspace : ∀ c ∈ [' '], Script.isSpace c = true := List.forall_mem_singleton.mpr (by decide)
  have hend : ∀ c ∈ ['\n'], Script.isSpace c = true := List.forall_mem_singleton.mpr (by decide)
  have hcomment : Script.Gap ([' '] ++ ('/' :: '*' :: text " all " ++ ['*', '/']) ++ ['\n']) :=
    .block hspace (by decide) (.blanks hend)
  have hblank : Script.Gap [' '] := .blanks hspace
  exact ⟨rfl, text " ;",
    ⟨text " * as hbs /* all */\nfrom 'm' ;",
        ⟨[], text "import", .nil, .word (by decide) (by decide), rfl⟩,
      text " as hbs /* all */\nfrom 'm' ;", ⟨[' '], ['*'], hblank, .star (by decide), rfl⟩,
      text " hbs /* all */\nfrom 'm' ;",
        ⟨[' '], text "as", hblank, .word (by decide) (by decide), rfl⟩,
      text " /* all */\nfrom 'm' ;", ⟨[' '], tag, hblank, .word (by decide) (by decide), rfl⟩,
      text " 'm' ;", ⟨_, text "from", hcomment, .word (by decide) (by decide), rfl⟩,
      text " ;", ⟨[' '], text "'m'", hblank, .string legal_commentedImport.source, rfl⟩, rfl⟩,
    .inr ⟨[' '], hblank, rfl⟩⟩

/-- The comment between the names and the module is quoted, and the blank before the semicolon is
not. Without its spans, all is quoted on one line. -/
theorem quoted_import_is_the_import_commented :
    let target : Target := ⟨text "m", Target.defaultExport⟩
    let m : Tree := .node (.module none) ⟨1, 37⟩ [commentedItem]
    let used := text "import * as hbs /* all */\nfrom 'm'"
    let printed := text "import * as hbs from 'm'"
    (Script.Program.ofSource? .plain commentedSource).toOption.map (·.tree) = some m ∧
    trackImports [target] commentedSource m =
      .error ⟨⟨1, 37⟩, .importForm target.requiredSyntax used⟩ ∧
    ReadsAsItem .plain used commentedItem ∧
    trackImports [target] commentedSource m.eraseSpans =
      .error ⟨.nowhere, .importForm target.requiredSyntax printed⟩ ∧
    ReadsAsItem .plain printed commentedItem.eraseSpans := by
  intro target m used printed
  have herror : trackImports [target] commentedSource m =
      .error ⟨⟨1, 37⟩, .importForm target.requiredSyntax used⟩ := rfl
  have herased : trackImports [target] commentedSource m.eraseSpans =
      .error ⟨.nowhere, .importForm target.requiredSyntax printed⟩ := rfl
  obtain ⟨item, hitem, -, hquoted⟩ := @quoted_import_is_the_import .plain _ _ _ _ _ _ herror
  obtain rfl := List.mem_singleton.mp hitem
  obtain ⟨other, hother, -, hprinted⟩ := @quoted_import_is_the_import .plain _ _ _ _ _ _ herased
  obtain rfl := List.mem_singleton.mp hother
  have hread := (hquoted commentedImport legal_commentedImport rfl).1 written_commentedImport
  have hread' := (hprinted commentedImport legal_commentedImport rfl).2 rfl
  exact ⟨by decide +kernel, herror, hread.1, herased, hread'.1.mpr fun h => nomatch h.1⟩

/-- `import type {} from 'htmlbars-inline-precompile';` -/
def Sample.bareTypeItem : Tree :=
  .item (.import true .evaluation) .nowhere
    [.list [], .ofPart (.string Target.standard.source
      (some (text "'htmlbars-inline-precompile'"))) .nowhere [], .absent]

/-- Braces that hold no name are not printed, and without them the word `type` is a name. -/
theorem quoted_import_without_braces :
    readAs? .typed (text "import type {} from 'htmlbars-inline-precompile';") =
      some (moduleOf [bareTypeItem]) ∧
    trackImports [Target.standard] [] (moduleOf [bareTypeItem]) = .error ⟨.nowhere,
      .importForm Target.standard.requiredSyntax (text "import type 'htmlbars-inline-precompile'")⟩ ∧
    readAs? .typed (text "import type 'htmlbars-inline-precompile'") = none := by
  refine ⟨by decide +kernel, rfl, by decide +kernel⟩

end

end InlineTemplates
