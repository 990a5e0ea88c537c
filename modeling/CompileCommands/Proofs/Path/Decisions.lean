/-
What is decided by a path.

A program is looked for among the ignored programs and the declared compilers, its file name is
matched with the names of the families, and a source is looked for under the directories that a
filter lists.  All three read the components of a path and nothing else.  So a path can be spelled
in another way wherever it stands, as the program, in a list or as the executable of a compiler, and
the decision is the same.  Only a rejection shows the spelling, since it names the program as it was
read.
-/
import Mathlib.Data.List.Forall2
import CompileCommands.Database.Format
import CompileCommands.Proofs.Path.Spelling
import CompileCommands.Recognizer

namespace CompileCommands

/-! ### Lists -/

/-- Two lists of paths that are the same, place by place. -/
abbrev Path.AllSame : List Path → List Path → Prop :=
  List.Forall₂ fun p q => p.same q = true

section Lists

variable {α β : Type} {R : α → β → Prop} {f : α → Bool} {g : β → Bool} {items : List α}
  {others : List β}

theorem any_eq_of_forall₂ (h : List.Forall₂ R items others) (agree : ∀ a b, R a b → f a = g b) :
    items.any f = others.any g := by
  induction h with
  | nil => rfl
  | cons hab _ ih => rw [List.any_cons, List.any_cons, agree _ _ hab, ih]

/-- Where related items pass or fail together, the first that passes stands at the same place. -/
theorem find?_of_forall₂ (h : List.Forall₂ R items others) (agree : ∀ a b, R a b → f a = g b) :
    (items.find? f = none ∧ others.find? g = none)
      ∨ ∃ (place : Nat) (a : α) (b : β), items.find? f = some a ∧ others.find? g = some b
        ∧ items[place]? = some a ∧ others[place]? = some b ∧ R a b := by
  induction h with
  | nil => exact .inl ⟨rfl, rfl⟩
  | @cons a b items others hab _ ih =>
    cases hb : g b with
    | true =>
      have ha : f a = true := (agree a b hab).trans hb
      exact .inr ⟨0, a, b, List.find?_cons_of_pos ha, List.find?_cons_of_pos hb, rfl, rfl, hab⟩
    | false =>
      have ha : f a = false := (agree a b hab).trans hb
      rw [List.find?_cons_of_neg (by simp [ha]), List.find?_cons_of_neg (by simp [hb])]
      rcases ih with hnone | ⟨place, first, second, hfirst, hsecond, hplace, hplace', hrelated⟩
      · exact .inl hnone
      · exact .inr ⟨place + 1, first, second, hfirst, hsecond, hplace, hplace', hrelated⟩

end Lists

/-! ### Tools -/

/-- The same tool, but for the spelling of its path. -/
inductive Tool.Respelled : Tool → Tool → Prop
  | family (family : Family) : Respelled (.family family) (.family family)
  | declared (compiler : DeclaredCompiler) {executable : Path}
      (same : compiler.executable.same executable = true) :
      Respelled (.declared compiler) (.declared { compiler with executable })

theorem Family.recognizes_of_same {p q : Path} (h : p.same q = true) (family : Family) :
    family.recognizes q = family.recognizes p := by
  rw [recognizes, recognizes, Path.fileName?, Path.fileName?, Path.same_iff.mp h]

theorem Tool.Respelled.recognizes_eq {tool respelled : Tool} (h : tool.Respelled respelled)
    {p q : Path} (hpq : p.same q = true) : tool.recognizes p = respelled.recognizes q := by
  cases h with
  | family family => exact (Family.recognizes_of_same hpq family).symm
  | declared compiler same =>
    show (p.components == compiler.executable.components) = (q.components == _)
    rw [Path.same_iff.mp hpq, Path.same_iff.mp same]

theorem Tool.Respelled.invocations_eq {tool respelled : Tool} (h : tool.Respelled respelled)
    (command : Command) : respelled.invocations command = tool.invocations command := by
  cases h <;> rfl

/-! ### Selections -/

/-- The rejection of another program for the same reason. -/
def Rejection.naming (program : Path) : Rejection → Rejection
  | excluded _ => .excluded program
  | notRecognized _ => .notRecognized program
  | other => other

namespace Recognizer

/-- The same recognizer, but for the spelling of its paths. -/
structure Respelled (recognizer respelled : Recognizer) : Prop where
  tools : List.Forall₂ Tool.Respelled recognizer.tools respelled.tools
  excluded : Path.AllSame recognizer.excluded respelled.excluded

/-- What two recognizers select for two programs agrees: the tools stand at the same place, or the
programs are rejected for the same reason. -/
inductive SelectsAlike (recognizer respelled : Recognizer) (p q : Path) :
    Except Rejection Tool → Except Rejection Tool → Prop
  | tool {place : Nat} {first second : Tool} (here : recognizer.tools[place]? = some first)
      (there : respelled.tools[place]? = some second) (same : first.Respelled second) :
      SelectsAlike recognizer respelled p q (.ok first) (.ok second)
  | excluded : SelectsAlike recognizer respelled p q (.error (.excluded p)) (.error (.excluded q))
  | notRecognized :
      SelectsAlike recognizer respelled p q (.error (.notRecognized p)) (.error (.notRecognized q))

variable {recognizer respelled : Recognizer} {p q : Path}

theorem Respelled.refl (recognizer : Recognizer) : recognizer.Respelled recognizer where
  tools := List.forall₂_same.mpr fun
    | .family family, _ => .family family
    | .declared compiler, _ => .declared compiler (Path.same_refl _)
  excluded := List.forall₂_same.mpr fun program _ => Path.same_refl program

theorem Respelled.selectsAlike (h : recognizer.Respelled respelled) (hpq : p.same q = true) :
    SelectsAlike recognizer respelled p q (recognizer.select p) (respelled.select q) := by
  have hexcluded : recognizer.excluded.any (·.same p) = respelled.excluded.any (·.same q) := by
    refine any_eq_of_forall₂ h.excluded fun a b hab => ?_
    rw [Path.same, Path.same, Path.same_iff.mp hab, Path.same_iff.mp hpq]
  have hrecognizes : ∀ tool other, Tool.Respelled tool other →
      ToolLike.recognizes p tool = ToolLike.recognizes q other :=
    fun _ _ htool => htool.recognizes_eq hpq
  rw [select, select, ← hexcluded]
  by_cases hany : recognizer.excluded.any (·.same p) = true
  · rw [if_pos hany, if_pos hany]
    exact .excluded
  · rw [if_neg hany, if_neg hany]
    rcases find?_of_forall₂ h.tools hrecognizes with
      ⟨hp, hq⟩ | ⟨place, first, second, hp, hq, here, there, hsame⟩
    · rw [hp, hq]
      exact .notRecognized
    · rw [hp, hq]
      exact .tool here there hsame

/-- For the same path the same tool is selected, or the path is rejected as it is spelled. -/
theorem select_of_same (h : p.same q = true) (recognizer : Recognizer) :
    recognizer.select q = (recognizer.select p).mapError (·.naming q) := by
  have halike := (Respelled.refl recognizer).selectsAlike h
  generalize recognizer.select p = first, recognizer.select q = second at halike ⊢
  cases halike with
  | tool here there => rw [here] at there; cases there; rfl
  | excluded => rfl
  | notRecognized => rfl

/-- Every process is recognized as it was. -/
theorem Respelled.recognize_eq (h : recognizer.Respelled respelled) (execution : Execution) :
    respelled.recognize execution = recognizer.recognize execution := by
  have halike := h.selectsAlike (Path.same_refl execution.command.program)
  rw [recognize, recognize]
  generalize recognizer.select execution.command.program = first,
    respelled.select execution.command.program = second at halike ⊢
  cases halike with
  | tool _ _ same => exact same.invocations_eq execution.command
  | excluded => rfl
  | notRecognized => rfl

end Recognizer

/-! ### Filters -/

/-- The same filter, but for the spelling of its directories. -/
structure SourceFilter.Respelled (filter respelled : SourceFilter) : Prop where
  onlyExisting : respelled.onlyExisting = filter.onlyExisting
  inside : Path.AllSame filter.inside respelled.inside
  outside : Path.AllSame filter.outside respelled.outside

namespace Path

variable {p q : Path} {directories respelled : List Path}

theorem any_isUnder_of_same (h : p.same q = true) (hlist : AllSame directories respelled) :
    directories.any p.isUnder = respelled.any q.isUnder := by
  refine any_eq_of_forall₂ hlist fun a b hab => ?_
  rw [isUnder, isUnder, same_iff.mp h, same_iff.mp hab]

end Path

theorem SourceFilter.Respelled.accepts_eq {filter respelled : SourceFilter}
    (h : filter.Respelled respelled) {entry : Entry} {file : Path}
    (hfile : entry.file.same file = true) (isPresent : Bool) :
    respelled.accepts isPresent { entry with file } = filter.accepts isPresent entry := by
  have hempty : filter.inside.isEmpty = respelled.inside.isEmpty := by
    rw [Bool.eq_iff_iff, List.isEmpty_iff_length_eq_zero, List.isEmpty_iff_length_eq_zero,
      h.inside.length_eq]
  rw [accepts, accepts, h.onlyExisting, hempty, Path.any_isUnder_of_same hfile h.inside,
    Path.any_isUnder_of_same hfile h.outside]

namespace Path

/-- **How a path is spelled decides nothing.**  Two paths are the same just when they can be
shortened to one.  A recognizer then selects the same tool for both programs or rejects both for the
same reason; it selects the tool at the same place, and recognizes every process as before, when its
own paths are respelled; and both lie under the same directories, however these are spelled. -/
theorem spelling_decides_nothing :
    (∀ p q : Path, p.same q = true ↔ p.Respells q)
    ∧ (∀ p q : Path, p.same q = true → ∀ recognizer : Recognizer,
        recognizer.select q = (recognizer.select p).mapError (·.naming q))
    ∧ (∀ recognizer respelled : Recognizer, recognizer.Respelled respelled →
        (∀ p q : Path, p.same q = true →
          Recognizer.SelectsAlike recognizer respelled p q (recognizer.select p)
            (respelled.select q))
        ∧ ∀ execution, respelled.recognize execution = recognizer.recognize execution)
    ∧ (∀ p q : Path, p.same q = true → ∀ directories respelled, AllSame directories respelled →
        directories.any p.isUnder = respelled.any q.isUnder)
    ∧ ∀ filter respelled : SourceFilter, filter.Respelled respelled →
        ∀ (entry : Entry) (file : Path), entry.file.same file = true → ∀ isPresent,
          respelled.accepts isPresent { entry with file } = filter.accepts isPresent entry :=
  ⟨fun _ _ => same_iff_respells,
    fun _ _ h recognizer => Recognizer.select_of_same h recognizer,
    fun _ _ h => ⟨fun _ _ hpq => h.selectsAlike hpq, h.recognize_eq⟩,
    fun _ _ h _ _ hlist => any_isUnder_of_same h hlist,
    fun _ _ h _ _ hfile isPresent => h.accepts_eq hfile isPresent⟩

/-- A recognizer with a declared compiler and an ignored program. -/
def vendorTools (executable ignored : String) : Recognizer :=
  .ofSelection { declared := [⟨⟨executable⟩, ["-g"], []⟩], excluded := [⟨ignored⟩] }

/-- The compiler, the ignored program and the directory are spelled in two ways each. -/
theorem spelling_decides_nothing_vendor :
    (Path.mk "/opt//vcc/").same ⟨"/opt/./vcc"⟩ = true
      ∧ (vendorTools "/opt/vcc" "/bin/cc/.").Respelled (vendorTools "/opt/vcc//" "/bin//cc")
      ∧ SourceFilter.Respelled { onlyExisting := true, inside := [⟨"/opt/"⟩] }
          { onlyExisting := true, inside := [⟨"//opt"⟩] }
      ∧ (Path.mk "/opt//vcc/").Respells ⟨"/opt/./vcc"⟩
      ∧ (vendorTools "/opt/vcc" "/bin/cc/.").select ⟨"/opt/./vcc"⟩
        = .ok (.declared ⟨⟨"/opt/vcc"⟩, ["-g"], []⟩)
      ∧ Recognizer.SelectsAlike (vendorTools "/opt/vcc" "/bin/cc/.")
          (vendorTools "/opt/vcc//" "/bin//cc") ⟨"/opt//vcc/"⟩ ⟨"/opt/./vcc"⟩
          (.ok (.declared ⟨⟨"/opt/vcc"⟩, ["-g"], []⟩))
          (.ok (.declared ⟨⟨"/opt/vcc//"⟩, ["-g"], []⟩))
      ∧ [Path.mk "//opt"].any (isUnder ⟨"/opt/./vcc"⟩) = true
      ∧ SourceFilter.accepts { onlyExisting := true, inside := [⟨"//opt"⟩] } true
          ⟨⟨"/opt/./vcc"⟩, ⟨"/"⟩, none, ["vcc"]⟩ = true := by
  have hsame : (Path.mk "/opt//vcc/").same ⟨"/opt/./vcc"⟩ = true := by decide
  have hfamilies := (Recognizer.Respelled.refl (.ofSelection {})).tools
  have htools : (vendorTools "/opt/vcc" "/bin/cc/.").Respelled
      (vendorTools "/opt/vcc//" "/bin//cc") :=
    ⟨List.rel_append hfamilies (.cons (.declared _ (by decide)) .nil), .cons (by decide) .nil⟩
  have hfilter : SourceFilter.Respelled { onlyExisting := true, inside := [⟨"/opt/"⟩] }
      { onlyExisting := true, inside := [⟨"//opt"⟩] } :=
    ⟨rfl, .cons (by decide) .nil, .nil⟩
  obtain ⟨hrespells, hselect, halike, hunder, haccepts⟩ := spelling_decides_nothing
  refine ⟨hsame, htools, hfilter, (hrespells _ _).mp hsame, ?_, ?_, ?_, ?_⟩
  · rw [hselect _ _ hsame]
    decide
  · exact (halike _ _ htools).1 _ _ hsame
  · rw [← hunder _ _ hsame _ _ hfilter.inside]
    decide
  · rw [haccepts _ _ hfilter ⟨⟨"/opt//vcc/"⟩, ⟨"/"⟩, none, ["vcc"]⟩ _ hsame]
    decide

end Path

end CompileCommands
