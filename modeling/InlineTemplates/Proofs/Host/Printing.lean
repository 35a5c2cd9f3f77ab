import InlineTemplates.Proofs.Host.Items
import InlineTemplates.Proofs.Host.Variables
import InlineTemplates.Proofs.Printing.Call

/-! # Hosts in print

A host is a module with a variable whose value is the one use. What is printed for it is the print of
the value, with the same documents around whatever the value is. -/

namespace InlineTemplates

open Script (Tree Style Doc Printed VarKind lit variableTree)

/-- A variable without its value. -/
structure Holder where
  statement : Span
  kind : VarKind
  declarator : Span
  nameSpan : Span
  name : Text

/-- A module around the value of a variable. -/
structure Host where
  hashbang : Option Text
  whole : Span
  before : List Tree
  holder : Holder
  after : List Tree

namespace Holder

variable (h : Holder) (s : Style) {value : Tree}

/-- The variable with this value. -/
def tree (value : Tree) : Tree :=
  .stmt (.var h.kind false) h.statement
    [.ofPart (.declarator false) h.declarator [.pat (.name h.name false) h.nameSpan [.absent], value]]

/-- The word, the name and the sign before the value. -/
def declares : Doc :=
  Doc.before h.statement.lo ++ lit h.kind.keyword.word ++ s.gapIf true ++
    Doc.before h.declarator.lo ++ Doc.before h.nameSpan.lo ++ [.text h.name] ++
    Doc.after h.nameSpan.hi ++ s.gap ++ lit "="

def ends : Doc := Doc.behind h.declarator.hi ++ lit ";" ++ Doc.after h.statement.hi ++ s.newline

theorem eraseSpans_tree (value : Tree) :
    (h.tree value).eraseSpans = variableTree h.kind h.name value.eraseSpans := rfl

variable {h s}

theorem code_tree (hvalue : value.isAbsent = false) :
    (s.print (h.tree value)).code =
      h.declares s ++ s.gap ++ (s.print value).whole ++ Doc.behind h.declarator.hi := by
  have hdecl : (s.print (.ofPart (.declarator false) h.declarator
        [.pat (.name h.name false) h.nameSpan [.absent], value])).code =
      Doc.before h.declarator.lo ++ ((Doc.before h.nameSpan.lo ++ ([.text h.name] ++ [] ++ []) ++
        Doc.after h.nameSpan.hi) ++
        (s.print value).led (s.gap ++ lit "=" ++ s.gap) Printed.whole) := rfl
  have hled : (s.print value).led (s.gap ++ lit "=" ++ s.gap) Printed.whole =
      s.gap ++ lit "=" ++ s.gap ++ (s.print value).whole := by
    cases value
    simp [Printed.led, Printed.isAbsent, Style.print, Printed.tree, hvalue]
  have hcode : (s.print (h.tree value)).code =
      Doc.before h.statement.lo ++ ([] ++ lit h.kind.keyword.word ++ s.gapIf true ++
        s.list .commas h.statement [⟨h.declarator, (s.print (.ofPart (.declarator false) h.declarator
          [.pat (.name h.name false) h.nameSpan [.absent], value])).code⟩]) := by
    cases hkind : h.kind <;> simp [tree, hkind] <;> rfl
  rw [hcode, Style.list_commas_singleton, hdecl, hled, declares]
  simp only [List.append_assoc, List.nil_append, List.append_nil]

theorem moduleItem_tree (hvalue : value.isAbsent = false) :
    s.moduleItem (s.print (h.tree value)) =
      h.declares s ++ (s.gap ++ ((s.print value).whole ++ h.ends s)) := by
  have hitem : s.moduleItem (s.print (h.tree value)) =
      (s.print (h.tree value)).code ++ lit ";" ++ Doc.after h.statement.hi ++ s.newline := rfl
  rw [hitem, code_tree hvalue, ends]
  simp only [List.append_assoc]

end Holder

namespace Host

variable (h : Host) (s : Style) {value : Tree}

/-- The module with this value. -/
def module (value : Tree) : Tree :=
  .node (.module h.hashbang) h.whole (h.before ++ h.holder.tree value :: h.after)

def front : Doc :=
  Doc.before h.whole.lo ++ firstLine h.hashbang ++ s.items h.before ++ h.holder.declares s ++ s.gap

def back : Doc := h.holder.ends s ++ s.items h.after ++ Doc.after h.whole.hi

variable {h s}

theorem doc_module (hvalue : value.isAbsent = false) :
    (h.module value).doc s = h.front s ++ (s.print value).whole ++ h.back s := by
  have hdoc : (h.module value).doc s = Doc.before h.whole.lo ++ (firstLine h.hashbang ++
      s.items (h.before ++ h.holder.tree value :: h.after) ++ Doc.after h.whole.hi) := by
    obtain ⟨hashbang, _, _, _, _⟩ := h
    cases hashbang <;> rfl
  have hitems : s.items (h.before ++ h.holder.tree value :: h.after) =
      s.items h.before ++ (s.moduleItem (s.print (h.holder.tree value)) ++ s.items h.after) := by
    rw [← items_cons, Style.items, printAll_append, List.flatMap_append]
    rfl
  rw [hdoc, hitems, Holder.moduleItem_tree hvalue, front, back]
  simp only [List.append_assoc]

end Host
end InlineTemplates
