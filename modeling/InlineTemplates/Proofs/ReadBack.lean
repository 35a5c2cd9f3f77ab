import InlineTemplates.Proofs.ModuleRun
import InlineTemplates.Proofs.Printing.SameText
import InlineTemplates.Proofs.Sample

/-! # Whether what is printed is read back

No pass puts parentheses where a changed tree needs them. A tagged template can stand behind `new`
as it is and a call cannot: in print, `new` takes the call's own arguments. -/

namespace InlineTemplates

open Script (Tree Dialect Program Doc Style Printed lit)

deriving instance DecidableEq for Program

theorem eq_ok_of_toOption {ε α : Type} {r : Except ε α} {a : α} (h : r.toOption = some a) :
    r = .ok a := by
  cases r with
  | error e => cases h
  | ok b => exact congrArg Except.ok (Option.some.inj h)

/-- What a module is read as, without its spans. -/
def readAs? (dialect : Dialect) (code : Text) : Option Tree :=
  (Program.ofSource? dialect code).toOption.map (·.tree.eraseSpans)

/-- Printed and read again, the module is what it was up to its spans. -/
def ReadsBack (dialect : Dialect) (source : Text) (module : Tree) : Prop :=
  readAs? dialect (module.plain false source) = some module.eraseSpans

instance (dialect : Dialect) (source : Text) (module : Tree) :
    Decidable (ReadsBack dialect source module) :=
  inferInstanceAs (Decidable (_ = _))

theorem not_readsBack_of_plain_eq {dialect : Dialect} {source : Text} {module other : Tree}
    (hplain : module.plain false source = other.plain false source)
    (hother : ReadsBack dialect source other) (hne : module.eraseSpans ≠ other.eraseSpans) :
    ¬ ReadsBack dialect source module := by
  intro hread
  rw [ReadsBack, hplain] at hread
  exact hne (Option.some.inj (hread.symm.trans hother))

/-! ## A call behind `new` -/

section
variable (span inner : Span) (e : Tree) (args : List Tree)

/-- `new` with arguments, over the call that stands for a site. -/
def newOfCall : Tree := .expr (.new true) span [templateCall e inner, .list args, .absent]

/-- A call of what `new` makes of the template function. -/
def callOfNew : Tree :=
  .expr .call span
    [.expr (.new true) inner [templateFunction, .list [e], .absent], .list args, .absent]

variable {s : Style}

theorem sameText_newOfCall (hs : s.dense = false) :
    Doc.SameText (s.print (newOfCall span inner e args)).code
      (s.print (callOfNew span inner e args)).code := by
  have hnew : (s.print (newOfCall span inner e args)).code =
      (Doc.before span.lo ++ (lit "new" ++ s.gapIf true ++ Doc.before inner.lo)) ++
        ((s.print templateFunction).whole ++ s.arguments inner [s.print e]) ++
        (Doc.after inner.hi ++ s.arguments span (s.printAll args)) := by
    have h : (s.print (newOfCall span inner e args)).code =
        Doc.before span.lo ++ (lit "new" ++ s.gapIf true ++
          (Doc.before inner.lo ++ ((s.print templateFunction).whole ++ [] ++
            s.arguments inner [s.print e]) ++ Doc.after inner.hi) ++ [] ++
          if true && !(s.dense && (s.printAll args).isEmpty) then
            s.arguments span (s.printAll args) else []) := rfl
    rw [h, hs]
    simp
  have hcall : (s.print (callOfNew span inner e args)).code =
      (Doc.before span.lo ++ (Doc.before inner.lo ++ lit "new" ++ s.gapIf true)) ++
        ((s.print templateFunction).whole ++ s.arguments inner [s.print e]) ++
        s.arguments span (s.printAll args) := by
    have h : (s.print (callOfNew span inner e args)).code =
        Doc.before span.lo ++ ((Doc.before inner.lo ++ (lit "new" ++ s.gapIf true ++
          (s.print templateFunction).whole ++ [] ++
          if true && !(s.dense && false) then s.arguments inner [s.print e] else []) ++
          if s.dense && false then lit "()" else []) ++ [] ++
          s.arguments span (s.printAll args)) := rfl
    rw [h, hs]
    simp
  rw [hnew, hcall]
  have hfront : Doc.SameText (lit "new" ++ s.gapIf true ++ Doc.before inner.lo)
      (Doc.before inner.lo ++ lit "new" ++ s.gapIf true) := by
    intro m rest
    rfl
  refine .append (.append (.append (.refl _) hfront) (.refl _)) ?_
  exact fun _ _ => rfl

end

/-! ## A host -/

open Sample in
theorem ofSource?_hostSource (dialect : Dialect) :
    Program.ofSource? dialect hostSource = .ok host := by
  refine eq_ok_of_toOption ?_
  cases dialect with
  | mk types tags => cases types <;> cases tags <;> decide +kernel

open Sample in
theorem trackImports_host :
    trackImports [Target.standard] hostSource host.tree = .ok (tracked, hostOf hostUse) :=
  eq_ok_of_toOption (by decide +kernel)

/-! ## A statement among others -/

section
variable {hashbang : Option Text} {whole span : Span} {before after : List Tree}

def moduleAround (hashbang : Option Text) (whole span : Span) (before after : List Tree)
    (e : Tree) : Tree :=
  .node (.module hashbang) whole (before ++ .stmt .expr span [e] :: after)

theorem printAll_append (s : Style) (ts us : List Tree) :
    s.printAll (ts ++ us) = s.printAll ts ++ s.printAll us := by
  induction ts with
  | nil => rfl
  | cons t ts ih => rw [List.cons_append, Style.printAll, Style.printAll, ih, List.cons_append]

theorem doc_moduleAround (s : Style) (hashbang : Option Text) (whole span : Span)
    (before after : List Tree) :
    ∃ front back, ∀ e, (moduleAround hashbang whole span before after e).doc s =
      front ++ (s.print e).whole ++ back := by
  have hitem (e : Tree) : s.moduleItem (s.print (.stmt .expr span [e])) =
      Doc.before span.lo ++ ((s.print e).whole ++ lit ";") ++ Doc.after span.hi ++ s.newline := rfl
  obtain ⟨first, hmodule⟩ : ∃ first, ∀ items, s.module whole hashbang items =
      first ++ items.flatMap s.moduleItem ++ Doc.after whole.hi := ⟨_, fun _ => rfl⟩
  refine ⟨Doc.before whole.lo ++ first ++ (s.printAll before).flatMap s.moduleItem ++
    Doc.before span.lo, lit ";" ++ Doc.after span.hi ++ s.newline ++
    (s.printAll after).flatMap s.moduleItem ++ Doc.after whole.hi, fun e => ?_⟩
  have hdoc : (moduleAround hashbang whole span before after e).doc s =
      Doc.before whole.lo ++ s.module whole hashbang (s.printAll before ++
        s.print (.stmt .expr span [e]) :: s.printAll after) := by
    rw [← Style.printAll, ← printAll_append]
    rfl
  rw [hdoc, hmodule, List.flatMap_append, List.flatMap_cons, hitem]
  simp only [List.append_assoc]

theorem plain_moduleAround_congr {t u : Tree} {source : Text}
    (h : Doc.SameText (Style.print { source := source } t).whole
      (Style.print { source := source } u).whole) :
    (moduleAround hashbang whole span before after t).plain false source =
      (moduleAround hashbang whole span before after u).plain false source := by
  obtain ⟨front, back, hdoc⟩ :=
    doc_moduleAround { source := source } hashbang whole span before after
  rw [Tree.plain, Tree.plain, Tree.render, Tree.render, Doc.render_nil, Doc.render_nil]
  rw [hdoc, hdoc]
  exact Doc.layout_eq_of_sameText (.append (.append (.refl front) h) (.refl back)) {}

/-- **A call that stands for a site behind `new` is not read back** where its print is read as a
call of what `new` makes. -/
theorem not_readsBack_newOfCall {dialect : Dialect} {source : Text} {inner outer : Span} {e : Tree}
    {args : List Tree}
    (h : ReadsBack dialect source
      (moduleAround hashbang whole span before after (callOfNew outer inner e args))) :
    ¬ ReadsBack dialect source
      (moduleAround hashbang whole span before after (newOfCall outer inner e args)) := by
  refine not_readsBack_of_plain_eq (plain_moduleAround_congr ?_) h ?_
  · exact .append (sameText_newOfCall outer inner e args rfl) (.refl _)
  · intro heq
    simp [moduleAround, newOfCall, callOfNew, Tree.stmt, Tree.expr, Tree.eraseSpans,
      Tree.eraseSpansAll_eq_map] at heq

end

/-! ## A use behind `new` -/

section
open Sample

namespace Sample

def newSource : Text :=
  text "import hbs from 'htmlbars-inline-precompile';\nnew hbs`x`();"

def madeUse : Tree :=
  .expr .tagged ⟨51, 57⟩
    [.expr (.name tag) ⟨51, 54⟩ [], .absent,
      .expr .template ⟨54, 57⟩
        [.list [], .list [.ofPart (.quasi true (some (text "x")) (text "x")) ⟨55, 56⟩ []]]]

def newTree : Tree :=
  .node (.module none) ⟨1, 60⟩
    [writtenImport,
      .stmt .expr ⟨47, 60⟩ [.expr (.new true) ⟨47, 59⟩ [madeUse, .list [], .absent]]]

def answer : Tree := .expr (.name (text "t")) .nowhere []

end Sample

/-- The module is read back and the changed module is not: its call is read as the argument list of
`new`. -/
theorem new_over_use_not_read_back :
    let changed := moduleAround none ⟨1, 60⟩ ⟨47, 60⟩ [] [] (newOfCall ⟨47, 59⟩ ⟨51, 57⟩ answer [])
    let other := moduleAround none ⟨1, 60⟩ ⟨47, 60⟩ [] [] (callOfNew ⟨47, 59⟩ ⟨51, 57⟩ answer [])
    Program.ofSource? .plain newSource = .ok ⟨newSource, newTree, []⟩ ∧
    ReadsBack .plain newSource newTree ∧
    (((answering (text "t")).module newSource newTree).runFrom ()).1 = .ok (changed, ⟨1, 1⟩) ∧
    changed.plain false newSource = text "new Ember.HTMLBars.template(t)();\n" ∧
    readAs? .plain (changed.plain false newSource) = some other.eraseSpans ∧
    ¬ ReadsBack .plain newSource changed := by
  refine ⟨eq_ok_of_toOption ?_, ?_, eq_ok_of_toOption ?_, ?_, ?_, not_readsBack_newOfCall ?_⟩
  all_goals decide +kernel

end

end InlineTemplates
