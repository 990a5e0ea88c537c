/-
The order in which the families are asked.

A recognizer takes the first tool that knows a program.  Where no two tools know the same program
there is nothing to be first at, and the tools may be asked in any order.  No program is of two
families, so this holds for the families among themselves.  It does not hold for declared compilers,
which may be programs of a family, and these stay behind the families.
-/
import CompileCommands.Proofs.Compiler.Families
import CompileCommands.Recognizer

namespace CompileCommands.Recognizer

/-- The recognizer that asks some families in their order, and the declared compilers behind
them. -/
def inOrder (families : List Family) (selection : Selection) : Recognizer where
  tools := families.map Tool.family ++ selection.declared.map Tool.declared
  excluded := selection.excluded

/-- Where one item at most is looked for, the order of the items makes no difference. -/
theorem find?_eq_of_perm {α : Type} {p : α → Bool} {items reordered : List α}
    (h : reordered.Perm items) (unique : ∀ a b, p a = true → p b = true → a = b) :
    reordered.find? p = items.find? p := by
  cases hfound : items.find? p with
  | none =>
    rw [List.find?_eq_none] at hfound ⊢
    exact fun a ha => hfound a (h.mem_iff.mp ha)
  | some a =>
    cases hother : reordered.find? p with
    | none =>
      rw [List.find?_eq_none] at hother
      exact absurd (List.find?_some hfound)
        (hother a (h.mem_iff.mpr (List.mem_of_find?_eq_some hfound)))
    | some b => rw [unique b a (List.find?_some hother) (List.find?_some hfound)]

theorem find?_inOrder {families : List Family} (h : families.Perm Family.all)
    (selection : Selection) (program : Path) :
    (inOrder families selection).tools.find? (ToolLike.recognizes program)
      = (ofSelection selection).tools.find? (ToolLike.recognizes program) := by
  have hunique : ∀ f g, ((ToolLike.recognizes program) ∘ Tool.family) f = true →
      ((ToolLike.recognizes program) ∘ Tool.family) g = true → f = g :=
    fun f g hf hg => Family.eq_of_recognizes hf hg
  have hfamilies : (families.map Tool.family).find? (ToolLike.recognizes program)
      = (Family.all.map Tool.family).find? (ToolLike.recognizes program) := by
    rw [List.find?_map, List.find?_map, find?_eq_of_perm h hunique]
  rw [inOrder, ofSelection, List.find?_append, List.find?_append, hfamilies]

/-- **A program is of one family at most, and the order of the families makes no difference**: the
same tool is selected for a program, or the same rejection is given.  A program is of a family if
its file name is a word of the expression of the family. -/
theorem select_in_any_order (program : Path) :
    (∀ family : Family, family.recognizes program = true
      ↔ ∃ name, program.fileName? = some name ∧ name.toList ∈ family.expression)
    ∧ (∀ f g : Family, f.recognizes program = true → g.recognizes program = true → f = g)
    ∧ ∀ families : List Family, families.Perm Family.all → ∀ selection : Selection,
        (inOrder families selection).select program = (ofSelection selection).select program := by
  refine ⟨fun _ => Family.recognizes_iff, fun _ _ => Family.eq_of_recognizes,
    fun families h selection => ?_⟩
  rw [select, select, find?_inOrder h]
  rfl

/-- A name with three dashes in front of its stem and one behind it. -/
theorem select_in_any_order_crossCompiler :
    Family.all.reverse.Perm Family.all
      ∧ (inOrder Family.all.reverse { declared := [⟨⟨"/opt/x86_64-w64-mingw32-g++-12.2"⟩, [], []⟩] }
          ).select ⟨"/opt/x86_64-w64-mingw32-g++-12.2"⟩ = .ok (.family .gcc) := by
  have hreverse : Family.all.reverse.Perm Family.all := List.reverse_perm Family.all
  refine ⟨hreverse, ?_⟩
  rw [(select_in_any_order _).2.2 Family.all.reverse hreverse]
  decide

end CompileCommands.Recognizer
