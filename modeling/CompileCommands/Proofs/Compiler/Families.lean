/-
No name is of two families.

One name can be cut into target, stem and version in more than one way, since a target may end at
any dash, and a version may begin with one.  What does not depend on the cut is the core of the
name: whatever could belong to a version is dropped at its end, and what then stands behind the
last dash is taken.  A target ends in a dash and no stem has one, a version holds nothing but
digits, dots and dashes and every stem holds something else.  So the core of a name is that of its
stem, and it is left to compare the cores of the few texts that the families are made of.
-/
import Mathlib.Data.List.DropRight
import CompileCommands.Proofs.Compiler.Names

namespace CompileCommands

namespace NamePattern

/-! ### Cores -/

/-- The characters that versions are made of, and the dash that may set a version apart. -/
def isVersionChar (c : Char) : Bool := Text.isDecimalDigit c || c = '.' || c = '-'

def core (name : List Char) : List Char := (name.rdropWhile isVersionChar).rtakeWhile (· ≠ '-')

/-- A text that can stand between a target and a version. -/
structure IsStem (stem : List Char) : Prop where
  noDash : '-' ∉ stem
  letter : ∃ c ∈ stem, isVersionChar c = false

instance (stem : List Char) : Decidable (IsStem stem) :=
  decidable_of_iff ('-' ∉ stem ∧ stem.any (!isVersionChar ·) = true)
    ⟨fun h => ⟨h.1, by simpa using h.2⟩, fun h => ⟨h.1, by simpa using h.2⟩⟩

theorem core_append_tail (front : List Char) {tail : List Char}
    (htail : ∀ c ∈ tail, isVersionChar c = true) : core (front ++ tail) = core front := by
  have hreverse : ∀ c ∈ tail.reverse, isVersionChar c = true := fun c hc =>
    htail c (List.mem_reverse.mp hc)
  rw [core, core, List.rdropWhile, List.rdropWhile, List.reverse_append,
    List.dropWhile_append_of_pos hreverse]

theorem rdropWhile_append_stem (front : List Char) {stem : List Char} (h : IsStem stem) :
    (front ++ stem).rdropWhile isVersionChar = front ++ stem.rdropWhile isVersionChar := by
  obtain ⟨c, hc, hletter⟩ := h.letter
  have hleft : (stem.reverse.dropWhile isVersionChar).isEmpty = false := by
    rw [List.isEmpty_eq_false_iff, Ne, List.dropWhile_eq_nil_iff]
    intro hall
    rw [hall c (List.mem_reverse.mpr hc)] at hletter
    cases hletter
  rw [List.rdropWhile, List.reverse_append, List.dropWhile_append, hleft, List.rdropWhile]
  simp

/-- Behind a target, a text without a dash is all that is taken. -/
theorem rtakeWhile_append_target {front text : List Char} (hfront : front ∈ target)
    (htext : '-' ∉ text) : (front ++ text).rtakeWhile (· ≠ '-') = text := by
  have hall : ∀ c ∈ text.reverse, decide (c ≠ '-') = true := by
    intro c hc
    have hne : c ≠ '-' := fun heq => htext (heq ▸ List.mem_reverse.mp hc)
    simpa using hne
  rw [List.rtakeWhile, List.reverse_append, List.takeWhile_append_of_pos hall]
  rcases mem_target.mp hfront with rfl | ⟨front, rfl⟩
  · simp
  · simp

/-- The core of a name is that of its stem, however the name is cut. -/
theorem core_append {front stem tail : List Char} (hfront : front ∈ target) (hstem : IsStem stem)
    (htail : ∀ c ∈ tail, isVersionChar c = true) : core (front ++ stem ++ tail) = core stem := by
  have hdash : '-' ∉ stem.rdropWhile isVersionChar := fun h =>
    hstem.noDash ((List.rdropWhile_prefix isVersionChar stem).subset h)
  calc core (front ++ stem ++ tail)
      = core (front ++ stem) := core_append_tail _ htail
    _ = (front ++ stem.rdropWhile isVersionChar).rtakeWhile (· ≠ '-') := by
        rw [core, rdropWhile_append_stem front hstem]
    _ = stem.rdropWhile isVersionChar := rtakeWhile_append_target hfront hdash
    _ = core stem := (rtakeWhile_append_target (mem_target.mpr (.inl rfl)) hdash).symm

theorem isVersionChar_of_mem_number {digits : List Char} (h : digits ∈ number) :
    ∀ c ∈ digits, isVersionChar c = true := by
  have hall := mem_number.mp h
  simp only [Bool.and_eq_true, List.all_eq_true] at hall
  intro c hc
  simp [isVersionChar, hall.2 c hc]

theorem isVersionChar_of_mem_dotted {text : List Char} (h : text ∈ dotted) :
    ∀ c ∈ text, isVersionChar c = true := by
  obtain ⟨digits, hdigits, rfl⟩ := mem_dotted.mp h
  intro c hc
  rcases List.mem_cons.mp hc with rfl | hc
  · rfl
  · exact isVersionChar_of_mem_number hdigits c hc

theorem isVersionChar_of_mem_versionTail {tail : List Char} (h : tail ∈ versionTail) :
    ∀ c ∈ tail, isVersionChar c = true := by
  simp only [versionTail, version, Language.mem_add, Language.mem_mul, Language.mem_one, mem_word]
    at h
  intro c hc
  rcases h with rfl | ⟨dash, hdash, _, ⟨first, hfirst, more, hmore, rfl⟩, rfl⟩
  · cases hc
  · rcases List.mem_append.mp hc with hc | hc
    · rcases hdash with rfl | rfl
      · cases hc
      · rw [List.mem_singleton.mp hc]
        rfl
    · rcases List.mem_append.mp hc with hc | hc
      · exact isVersionChar_of_mem_number hfirst c hc
      · rcases hmore with (rfl | hmore) | ⟨second, hsecond, third, hthird, rfl⟩
        · cases hc
        · exact isVersionChar_of_mem_dotted hmore c hc
        · rcases List.mem_append.mp hc with hc | hc
          · exact isVersionChar_of_mem_dotted hsecond c hc
          · exact isVersionChar_of_mem_dotted hthird c hc

/-- The cores of the names of a pattern. -/
def cores (pattern : NamePattern) : List (List Char) :=
  (pattern.plain ++ pattern.stems).map fun text => core text.toList

theorem core_mem_cores {pattern : NamePattern} (hstems : ∀ stem ∈ pattern.stems, IsStem stem.toList)
    {name : String} (h : pattern.accepts name = true) : core name.toList ∈ pattern.cores := by
  rw [accepts_iff_mem_language] at h
  rcases (Language.mem_add _ _ _).mp h with hplain | hbehind
  · obtain ⟨text, htext, heq⟩ := mem_words.mp hplain
    exact List.mem_map.mpr ⟨text, List.mem_append_left _ htext, by rw [heq]⟩
  · simp only [Language.mem_mul, mem_words] at hbehind
    obtain ⟨_, ⟨front, hfront, _, ⟨stem, hstem, rfl⟩, rfl⟩, tail, htail, heq⟩ := hbehind
    have hversion : ∀ c ∈ tail, isVersionChar c = true := by
      split at htail
      · exact isVersionChar_of_mem_versionTail htail
      · rw [Language.mem_one] at htail
        simp [htail]
    refine List.mem_map.mpr ⟨stem, List.mem_append_right _ hstem, ?_⟩
    rw [← heq, core_append hfront (hstems stem hstem) hversion]

end NamePattern

namespace Family

open NamePattern (IsStem)

/-! ### Families -/

theorem isStem_of_mem_stems (family : Family) :
    ∀ stem ∈ family.names.stems, IsStem stem.toList := by
  cases family <;> decide

theorem mem_all (family : Family) : family ∈ all := by
  cases family <;> decide

/-- No core is that of names of two families. -/
theorem eq_of_mem_cores :
    ∀ f ∈ all, ∀ g ∈ all, ∀ core ∈ f.names.cores, core ∈ g.names.cores → f = g := by
  decide

/-- A program is of one family at most. -/
theorem eq_of_recognizes {f g : Family} {program : Path} (hf : f.recognizes program = true)
    (hg : g.recognizes program = true) : f = g := by
  obtain ⟨name, hname, hfname⟩ := Option.any_eq_true _ _ |>.mp hf
  obtain ⟨other, hother, hgname⟩ := Option.any_eq_true _ _ |>.mp hg
  cases hname.symm.trans hother
  exact eq_of_mem_cores f (mem_all f) g (mem_all g) _
    (NamePattern.core_mem_cores (isStem_of_mem_stems f) hfname)
    (NamePattern.core_mem_cores (isStem_of_mem_stems g) hgname)

end Family

end CompileCommands
