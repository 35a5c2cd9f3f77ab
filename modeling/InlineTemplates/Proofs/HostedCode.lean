import InlineTemplates.Proofs.CommentsKept
import InlineTemplates.Proofs.Host.Reading
import InlineTemplates.Proofs.Host.Run

/-! # Code in its host

The code that a precompiler gives is checked as an expression of a plain script. It is printed into
a module of the file's dialect, which is strict. What it means there is for the rule for arguments of
this module to say. -/

namespace InlineTemplates

open Script (Tree Dialect Program fragment? ReadsAsArgument Datum)

variable {σ : Type}

/-- The module of the program, without its imports of targets, is the host with this one use. -/
structure Host.Holds (h : Host) (f : Transform σ) (program : Program) (use : Tree) (template : Text) :
    Prop where
  used : ∃ bindings site,
    trackImports f.targets program.source program.tree = .ok (bindings, h.module use) ∧
    checkShadowing bindings (h.module use) = .ok () ∧
    outermost bindings (h.module use) = [use] ∧
    siteOf? bindings use = some site ∧ site.template? = .ok template

variable {f : Transform σ} {fileName source template code : Text} {program : Program} {h : Host}
  {use e : Tree} {s s' : σ}

theorem Host.Holds.run_code (huse : h.Holds f program use template)
    (hread : Program.ofSource? (.ofFileName fileName) source = .ok program)
    (hcode : (f.precompiler template).run s = (.code code, s')) (he : fragment? code = .ok e) :
    (f.file fileName source).run.run s =
      (.ok (((h.module (templateCall e use.span)).doc program.style).render program.comments), s') := by
  obtain ⟨bindings, site, htrack, hnames, honly, hsite, htemplate⟩ := huse.used
  exact h.run_file hread htrack hnames honly hsite htemplate (runFrom_precompile_code hcode he use.span)

section
open Sample

namespace Sample

def plainHost : Host where
  hashbang := none
  whole := ⟨1, 66⟩
  before := []
  holder := ⟨⟨47, 66⟩, .const, ⟨53, 65⟩, ⟨53, 54⟩, text "x"⟩
  after := []

/-- `f(["t", a.b])` -/
def listed : Datum :=
  .call (text "f") [] [.array [.string (text "\"t\"") (text "t"), .dotted (text "a") [text "b"]]]

/-- `010`, eight to a plain script and an error in a module. -/
def octal : Tree := .expr (.number ⟨8, 0⟩ (some (text "010"))) .nowhere []

/-- `delete y`, which no module can say. -/
def deletion : Tree := .expr (.unary .delete) .nowhere [word (text "y")]

/-- `a < b > (c)`, two comparisons. -/
def comparison : Tree :=
  .expr (.binary .gt) .nowhere
    [.expr (.binary .lt) .nowhere [word (text "a"), word (text "b")],
      .expr .paren .nowhere [word (text "c")]]

/-- `a<b>(c)`, a call with a type argument. -/
def typedCall : Tree :=
  .expr .call .nowhere
    [word (text "a"), .list [word (text "c")],
      .ofPart .typeArgs .nowhere [.type .reference .nowhere [partWord (text "b"), .absent]]]

def lineWith (code : Text) : Text := text "const x = Ember.HTMLBars.template(" ++ code ++ text ");\n"

end Sample

theorem holds_plainHost (code : Text) : plainHost.Holds (answering code) host hostUse (text "t") where
  used := ⟨tracked, ⟨⟨Target.standard.source, tag⟩, ⟨57, 65⟩, .call (hostUse.items 1)⟩,
    trackImports_host, rfl, rfl, rfl, rfl⟩

theorem legible_plainHost (d : Script.Dialect) : plainHost.Legible d host.style where
  named := by decide
  comments := ⟨nofun, nofun⟩
  firstLine := nofun
  items := nofun

theorem run_plainHost {code line : Text} {e : Tree} (fileName : Text) (he : fragment? code = .ok e)
    (hline : ((plainHost.module (templateCall e hostUse.span)).doc host.style).render host.comments =
      line) : ((answering code).file fileName hostSource).run.run () = (.ok line, ()) :=
  hline ▸ (holds_plainHost code).run_code (ofSource?_hostSource _) rfl he

end

end InlineTemplates
