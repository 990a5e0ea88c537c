/-
The names of the families as regular expressions.

A name is cut by hand where a family is asked about it: at every dash for the target, behind a stem,
at every dot for the version.  The names of a family are also a regular language, which does not say
how a name is to be cut.  `Family.language` writes the five languages down as regular expressions,
and a family recognizes the programs whose file names are words of its language.
-/
import Mathlib.Computability.Language
import CompileCommands.Compiler.Family
import CompileCommands.Proofs.Text.Pieces

open scoped Computability

namespace CompileCommands

namespace NamePattern

/-! ### Expressions -/

/-- A text. -/
def word (text : String) : Language Char := {text.toList}

/-- One character of a class. -/
def oneOf (p : Char → Bool) : Language Char := {w : List Char | ∃ c, p c = true ∧ w = [c]}

/-- `([^-]*-)*` -/
def target : Language Char := ((oneOf (· ≠ '-'))∗ * word "-")∗

/-- `\d+` -/
def number : Language Char := oneOf Text.isDecimalDigit * (oneOf Text.isDecimalDigit)∗

/-- `\.\d+` -/
def dotted : Language Char := word "." * number

/-- `\d+(\.\d+){0,2}` -/
def version : Language Char := number * (1 + dotted + dotted * dotted)

/-- `(-?\d+(\.\d+){0,2})?` -/
def versionTail : Language Char := 1 + (1 + word "-") * version

/-- One of some texts. -/
def words (texts : List String) : Language Char := (texts.map word).sum

/-- The names that a pattern stands for. -/
def language (pattern : NamePattern) : Language Char :=
  words pattern.plain
    + target * words pattern.stems * (if pattern.versioned then versionTail else 1)

@[simp]
theorem mem_word {text : String} {w : List Char} : w ∈ word text ↔ w = text.toList := Iff.rfl

@[simp] theorem words_nil : words [] = 0 := rfl

@[simp]
theorem words_cons (text : String) (texts : List String) :
    words (text :: texts) = word text + words texts := by
  rw [words, List.map_cons, List.sum_cons, words]

@[simp]
theorem mem_words {texts : List String} {w : List Char} :
    w ∈ words texts ↔ ∃ text ∈ texts, w = text.toList := by
  induction texts with
  | nil => simp [Language.notMem_zero]
  | cons text texts ih =>
    rw [words_cons, Language.mem_add, mem_word, ih]
    simp

@[simp]
theorem mem_oneOf {p : Char → Bool} {w : List Char} :
    w ∈ oneOf p ↔ ∃ c, p c = true ∧ w = [c] := Iff.rfl

@[simp]
theorem mem_kstar_oneOf {p : Char → Bool} {w : List Char} :
    w ∈ (oneOf p)∗ ↔ ∀ c ∈ w, p c = true := by
  rw [Language.mem_kstar]
  constructor
  · rintro ⟨pieces, rfl, hpieces⟩ c hc
    obtain ⟨piece, hpiece, hmem⟩ := List.mem_flatten.mp hc
    obtain ⟨d, hd, rfl⟩ := hpieces piece hpiece
    exact List.mem_singleton.mp hmem ▸ hd
  · intro h
    refine ⟨w.map fun c => [c], (List.flatMap_singleton' w).symm, fun piece hpiece => ?_⟩
    obtain ⟨c, hc, rfl⟩ := List.mem_map.mp hpiece
    exact ⟨c, h c hc, rfl⟩

/-! ### Targets -/

theorem mem_target_iff_cases {w : List Char} :
    w ∈ target ↔ w = [] ∨ ∃ part rest, '-' ∉ part ∧ rest ∈ target ∧ w = part ++ '-' :: rest := by
  have hunfold : target = 1 + (oneOf (· ≠ '-'))∗ * word "-" * target :=
    (Language.one_add_self_mul_kstar_eq_kstar _).symm
  have hpart : ∀ part : List Char, part ∈ (oneOf (· ≠ '-'))∗ ↔ '-' ∉ part := by
    intro part
    rw [mem_kstar_oneOf]
    constructor
    · intro h hmem
      simpa using h _ hmem
    · intro h c hc
      have hne : c ≠ '-' := fun heq => h (heq ▸ hc)
      simpa using hne
  have hcases : w ∈ target ↔ w ∈ 1 + (oneOf (· ≠ '-'))∗ * word "-" * target := by rw [← hunfold]
  rw [hcases]
  simp only [Language.mem_add, Language.mem_one, Language.mem_mul, mem_word, hpart]
  refine or_congr_right ⟨?_, ?_⟩
  · rintro ⟨_, ⟨part, hpart, _, rfl, rfl⟩, rest, hrest, rfl⟩
    exact ⟨part, rest, hpart, hrest, by simp⟩
  · rintro ⟨part, rest, hpart, hrest, rfl⟩
    exact ⟨_, ⟨part, hpart, _, rfl, rfl⟩, rest, hrest, by simp⟩

/-- A target is empty or ends in a dash, whatever stands in front of the dash. -/
theorem mem_target {w : List Char} : w ∈ target ↔ w = [] ∨ ∃ front, w = front ++ ['-'] := by
  constructor
  · intro h
    induction hlength : w.length using Nat.strong_induction_on generalizing w with
    | _ n ih =>
      rcases mem_target_iff_cases.mp h with rfl | ⟨part, rest, -, hrest, rfl⟩
      · exact .inl rfl
      · right
        have hshorter : rest.length < n := by
          rw [← hlength, List.length_append, List.length_cons]
          omega
        rcases ih _ hshorter hrest rfl with rfl | ⟨front, rfl⟩
        · exact ⟨part, rfl⟩
        · exact ⟨part ++ '-' :: front, by simp⟩
  · rintro (rfl | ⟨front, rfl⟩)
    · exact Language.nil_mem_kstar _
    · induction front with
      | nil =>
        exact mem_target_iff_cases.mpr (.inr ⟨[], [], by simp, Language.nil_mem_kstar _, rfl⟩)
      | cons c front ih =>
        rcases mem_target_iff_cases.mp ih with hnil | ⟨part, rest, hpart, hrest, heq⟩
        · simp at hnil
        · refine mem_target_iff_cases.mpr (.inr ?_)
          by_cases hc : c = '-'
          · exact ⟨[], front ++ ['-'], by simp, ih, by simp [hc]⟩
          · exact ⟨c :: part, rest, by simp [hpart, Ne.symm hc], hrest, by simp [heq]⟩

theorem mem_afterTarget_go {w rest : List Char} :
    rest ∈ afterTarget.go w ↔ ∃ front, w = front ++ '-' :: rest := by
  induction w with
  | nil => simp [afterTarget.go]
  | cons c w ih =>
    rw [afterTarget.go]
    by_cases hc : c = '-'
    · rw [if_pos hc, List.mem_cons, ih, hc]
      constructor
      · rintro (rfl | ⟨front, rfl⟩)
        · exact ⟨[], rfl⟩
        · exact ⟨'-' :: front, rfl⟩
      · rintro ⟨front, hfront⟩
        cases front with
        | nil => exact .inl (List.cons.inj hfront).2.symm
        | cons d front => exact .inr ⟨front, (List.cons.inj hfront).2⟩
    · rw [if_neg hc, ih]
      constructor
      · rintro ⟨front, rfl⟩
        exact ⟨c :: front, rfl⟩
      · rintro ⟨front, hfront⟩
        cases front with
        | nil => exact absurd (List.cons.inj hfront).1 hc
        | cons d front => exact ⟨front, (List.cons.inj hfront).2⟩

theorem mem_afterTarget {w rest : List Char} :
    rest ∈ afterTarget w ↔ ∃ front ∈ target, front ++ rest = w := by
  have hcut : rest ∈ afterTarget w ↔ rest = w ∨ ∃ front, w = front ++ '-' :: rest := by
    cases w with
    | nil => simp [afterTarget]
    | cons c w => rw [afterTarget, List.mem_cons, mem_afterTarget_go]
  rw [hcut]
  constructor
  · rintro (rfl | ⟨front, rfl⟩)
    · exact ⟨[], mem_target.mpr (.inl rfl), rfl⟩
    · exact ⟨front ++ ['-'], mem_target.mpr (.inr ⟨front, rfl⟩), by simp⟩
  · rintro ⟨front, hfront, rfl⟩
    rcases mem_target.mp hfront with rfl | ⟨front, rfl⟩
    · exact .inl rfl
    · exact .inr ⟨front, by simp⟩

/-! ### Versions -/

theorem mem_number {w : List Char} :
    w ∈ number ↔ (!w.isEmpty && w.all Text.isDecimalDigit) = true := by
  simp only [number, Language.mem_mul, mem_oneOf, mem_kstar_oneOf]
  constructor
  · rintro ⟨_, ⟨c, hc, rfl⟩, rest, hrest, rfl⟩
    simpa [hc] using hrest
  · intro h
    cases w with
    | nil => cases h
    | cons c rest =>
      simp only [List.isEmpty_cons, Bool.not_false, Bool.true_and, List.all_cons, Bool.and_eq_true,
        List.all_eq_true] at h
      exact ⟨[c], ⟨c, h.1, rfl⟩, rest, h.2, rfl⟩

theorem notMem_of_mem_number {w : List Char} (h : w ∈ number) {c : Char}
    (hc : Text.isDecimalDigit c = false) : c ∉ w := by
  intro hmem
  have hall := mem_number.mp h
  simp only [Bool.and_eq_true, List.all_eq_true] at hall
  rw [hall.2 c hmem] at hc
  cases hc

@[simp] theorem mem_dotted {w : List Char} : w ∈ dotted ↔ ∃ digits ∈ number, w = '.' :: digits := by
  simp only [dotted, Language.mem_mul, mem_word]
  constructor
  · rintro ⟨_, rfl, digits, hdigits, rfl⟩
    exact ⟨digits, hdigits, rfl⟩
  · rintro ⟨digits, hdigits, rfl⟩
    exact ⟨_, rfl, digits, hdigits, rfl⟩

/-- A version is one, two or three numbers with dots between them. -/
theorem mem_version_iff_numbers {w : List Char} :
    w ∈ version ↔ ∃ numbers : List (List Char), numbers ≠ [] ∧ numbers.length ≤ 3
      ∧ (∀ digits ∈ numbers, digits ∈ number) ∧ ['.'].intercalate numbers = w := by
  simp only [version, Language.mem_mul, Language.mem_add, Language.mem_one, mem_dotted]
  constructor
  · rintro ⟨a, ha, _, (rfl | ⟨b, hb, rfl⟩) | ⟨_, ⟨b, hb, rfl⟩, _, ⟨c, hc, rfl⟩, rfl⟩, rfl⟩
    · exact ⟨[a], by simp, by simp, by simp [ha], by simp⟩
    · exact ⟨[a, b], by simp, by simp, by simp [ha, hb], by simp⟩
    · exact ⟨[a, b, c], by simp, by simp, by simp [ha, hb, hc], by simp⟩
  · rintro ⟨numbers, hne, hlength, hnumbers, rfl⟩
    match numbers, hne, hlength with
    | [a], _, _ => exact ⟨a, hnumbers a (by simp), [], .inl (.inl rfl), by simp⟩
    | [a, b], _, _ =>
      have hb := hnumbers b (by simp)
      exact ⟨a, hnumbers a (by simp), _, .inl (.inr ⟨b, hb, rfl⟩), by simp⟩
    | [a, b, c], _, _ =>
      have hb := hnumbers b (by simp)
      have hc := hnumbers c (by simp)
      exact ⟨a, hnumbers a (by simp), _, .inr ⟨_, ⟨b, hb, rfl⟩, _, ⟨c, hc, rfl⟩, rfl⟩, by simp⟩

@[simp] theorem mem_version {w : List Char} : w ∈ version ↔ isVersion w = true := by
  have hnumbers : isVersion w = true ↔ (Text.pieces '.' w).length ≤ 3
      ∧ ∀ digits ∈ Text.pieces '.' w, digits ∈ number := by
    simp only [isVersion, Bool.and_eq_true, decide_eq_true_eq, List.all_eq_true, mem_number]
  rw [mem_version_iff_numbers, hnumbers]
  constructor
  · rintro ⟨numbers, hne, hlength, hdigits, rfl⟩
    have hnoDot : ∀ digits ∈ numbers, '.' ∉ digits := fun digits hmem =>
      notMem_of_mem_number (hdigits digits hmem) (by decide)
    rw [Text.pieces_intercalate hne hnoDot]
    exact ⟨hlength, hdigits⟩
  · rintro ⟨hlength, hdigits⟩
    exact ⟨_, Text.pieces_ne_nil '.' w, hlength, hdigits, Text.intercalate_pieces '.' w⟩

theorem ne_dash_of_mem_version {c : Char} {w : List Char} (h : c :: w ∈ version) : c ≠ '-' := by
  obtain ⟨a, ha, rest, -, heq⟩ := Language.mem_mul.mp h
  have hdash : '-' ∉ a := notMem_of_mem_number ha (by decide)
  cases a with
  | nil => cases mem_number.mp ha
  | cons d a =>
    rintro rfl
    exact hdash (by simp [(List.cons.inj heq).1])

@[simp] theorem mem_versionTail {w : List Char} : w ∈ versionTail ↔ isVersionTail w = true := by
  have hcases : w ∈ versionTail ↔ w = [] ∨ w ∈ version ∨ ∃ v ∈ version, w = '-' :: v := by
    simp only [versionTail, Language.mem_add, Language.mem_mul, Language.mem_one, mem_word]
    constructor
    · rintro (rfl | ⟨_, rfl | rfl, v, hv, rfl⟩)
      · exact .inl rfl
      · exact .inr (.inl hv)
      · exact .inr (.inr ⟨v, hv, rfl⟩)
    · rintro (rfl | hw | ⟨v, hv, rfl⟩)
      · exact .inl rfl
      · exact .inr ⟨[], .inl rfl, w, hw, rfl⟩
      · exact .inr ⟨['-'], .inr rfl, v, hv, rfl⟩
  rw [hcases]
  cases w with
  | nil => simp [isVersionTail]
  | cons c rest =>
    by_cases hc : c = '-'
    · subst hc
      have hno : '-' :: rest ∉ version := fun h => ne_dash_of_mem_version h rfl
      simp [isVersionTail, hno]
    · have htail : isVersionTail (c :: rest) = isVersion (c :: rest) := by
        rw [isVersionTail.eq_3]
        · simp
        · intro version heq
          exact hc (List.cons.inj heq).1
      simp [htail, hc]

/-! ### Patterns -/

@[simp]
theorem behind?_eq_some_iff {stem text tail : List Char} :
    behind? stem text = some tail ↔ stem ++ tail = text := by
  unfold behind?
  split
  · rename_i h
    obtain ⟨rest, rfl⟩ := List.isPrefixOf_iff_prefix.mp h
    simp [eq_comm]
  · rename_i h
    simp only [reduceCtorEq, false_iff]
    rintro rfl
    exact h (List.isPrefixOf_iff_prefix.mpr (List.prefix_append stem tail))

theorem matchesStem_iff {pattern : NamePattern} {text : List Char} :
    pattern.matchesStem text = true
      ↔ ∃ stem ∈ pattern.stems, ∃ tail ∈ (if pattern.versioned then versionTail else 1),
        stem.toList ++ tail = text := by
  have htail : ∀ tail : List Char,
      (tail.isEmpty || (pattern.versioned && isVersionTail tail)) = true
      ↔ tail ∈ (if pattern.versioned then versionTail else 1) := by
    intro tail
    cases pattern.versioned with
    | false => simp [Language.mem_one]
    | true =>
      rw [if_pos rfl, mem_versionTail]
      cases tail <;> simp [isVersionTail]
  rw [matchesStem, List.any_eq_true]
  refine exists_congr fun stem => and_congr_right fun _ => ?_
  cases hbehind : behind? stem.toList text with
  | none =>
    simp only [Bool.false_eq_true, false_iff]
    rintro ⟨tail, -, heq⟩
    rw [behind?_eq_some_iff.mpr heq] at hbehind
    cases hbehind
  | some rest =>
    rw [behind?_eq_some_iff] at hbehind
    subst hbehind
    rw [htail]
    simp

/-- A pattern accepts the words of its language. -/
theorem accepts_iff_mem_language {pattern : NamePattern} {name : String} :
    pattern.accepts name = true ↔ name.toList ∈ pattern.language := by
  have hplain : pattern.plain.contains name = true ↔ name.toList ∈ words pattern.plain := by
    rw [mem_words, List.contains_iff_mem]
    simp only [String.toList_inj, exists_eq_right']
  have hstems : (afterTarget name.toList).any pattern.matchesStem = true
      ↔ name.toList ∈ target * words pattern.stems
          * (if pattern.versioned then versionTail else 1) := by
    simp only [List.any_eq_true, mem_afterTarget, matchesStem_iff, Language.mem_mul, mem_words]
    constructor
    · rintro ⟨_, ⟨front, hfront, heq⟩, stem, hstem, tail, htail, rfl⟩
      refine ⟨_, ⟨front, hfront, _, ⟨stem, hstem, rfl⟩, rfl⟩, tail, htail, ?_⟩
      rw [List.append_assoc, heq]
    · rintro ⟨_, ⟨front, hfront, _, ⟨stem, hstem, rfl⟩, rfl⟩, tail, htail, heq⟩
      refine ⟨_, ⟨front, hfront, ?_⟩, stem, hstem, tail, htail, rfl⟩
      rw [← List.append_assoc, heq]
  rw [accepts, Bool.or_eq_true, hplain, hstems]
  rfl

@[simp] theorem word_mul_word (a b : String) : word a * word b = word (a ++ b) := by
  ext w
  simp only [Language.mem_mul, mem_word, exists_eq_left, String.toList_append, @eq_comm _ w]

end NamePattern

/-! ### Families -/

namespace Family

open NamePattern (word words target versionTail words_nil words_cons word_mul_word)

/-- The expressions for the names of the families. -/
def expression : Family → Language Char
  | gcc => word "cc" + word "c++" + word "cxx" + word "CC"
      + target * ((word "m" + word "g") * (word "cc" + word "++")
          + (1 + word "g") * word "fortran") * versionTail
  | clang => target * (word "clang" * (1 + word "++")) * versionTail
  | launcher => word "ccache" + word "distcc" + word "sccache"
  | cuda => word "nvcc"
  | linker => target * (word "ld" * (1 + word "." * (word "bfd" + word "gold" + word "lld"))
      + word "lld" + word "ld64" * (1 + word ".lld") + word "gold" + word "mold")

@[simp] theorem language_names (family : Family) : family.names.language = family.expression := by
  cases family with
  | gcc =>
    have hplain : words gcc.names.plain = word "cc" + word "c++" + word "cxx" + word "CC" := by
      simp only [names, words_cons, words_nil, add_zero, add_assoc]
    have hstems : words gcc.names.stems
        = (word "m" + word "g") * (word "cc" + word "++") + (1 + word "g") * word "fortran" := by
      simp only [names, words_cons, words_nil, add_zero, add_mul, mul_add, one_mul, word_mul_word,
        String.reduceAppend]
      ac_rfl
    rw [NamePattern.language, hplain, hstems]
    rfl
  | clang =>
    have hstems : words clang.names.stems = word "clang" * (1 + word "++") := by
      simp only [names, words_cons, words_nil, add_zero, mul_add, mul_one, word_mul_word,
        String.reduceAppend]
    rw [NamePattern.language, hstems]
    exact zero_add _
  | launcher =>
    have hplain : words launcher.names.plain
        = word "ccache" + word "distcc" + word "sccache" := by
      simp only [names, words_cons, words_nil, add_zero, add_assoc]
    rw [NamePattern.language, hplain, show launcher.names.stems = [] from rfl, words_nil, mul_zero,
      zero_mul, add_zero, expression]
  | cuda =>
    have hplain : words cuda.names.plain = word "nvcc" := by
      rw [names, words_cons, words_nil, add_zero]
    rw [NamePattern.language, hplain, show cuda.names.stems = [] from rfl, words_nil, mul_zero,
      zero_mul, add_zero, expression]
  | linker =>
    have hstems : words linker.names.stems
        = word "ld" * (1 + word "." * (word "bfd" + word "gold" + word "lld"))
          + word "lld" + word "ld64" * (1 + word ".lld") + word "gold" + word "mold" := by
      simp only [names, words_cons, words_nil, add_zero, mul_add, mul_one, word_mul_word, add_assoc,
        String.reduceAppend]
    rw [NamePattern.language, hstems]
    exact (zero_add _).trans (mul_one _)

/-- A family recognizes the programs whose file names are words of its expression. -/
theorem recognizes_iff {family : Family} {program : Path} :
    family.recognizes program = true
      ↔ ∃ name, program.fileName? = some name ∧ name.toList ∈ family.expression := by
  rw [recognizes, Option.any_eq_true]
  simp only [NamePattern.accepts_iff_mem_language, language_names]

end Family

end CompileCommands
