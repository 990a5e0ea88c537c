/-
Which configurations are loaded.

A text of a configuration is decoded to it however it is written, so whether it is loaded is
decided by its paths alone: the executables of its compilers are absolute, and no path that it
excludes is empty.
-/
import CompileCommands.Proofs.Config.Rendering
import CompileCommands.Proofs.Path

namespace CompileCommands.Config

/-! ### Faults -/

/-- What the paths of a configuration have to be for it to be used. -/
structure IsValid (config : Config) : Prop where
  declared : ∀ compiler ∈ config.selection.declared,
    compiler.executable.text.toList.head? = some '/'
  excluded : ∀ path ∈ config.selection.excluded, path.text ≠ ""

theorem compilerFault?_eq_none_iff {compiler : DeclaredCompiler} :
    compilerFault? compiler = none ↔ compiler.executable.text.toList.head? = some '/' := by
  have habsolute : compiler.executable.isAbsolute = true
      ↔ compiler.executable.text.toList.head? = some '/' := beq_iff_eq
  rw [← habsolute, compilerFault?]
  constructor
  · intro h
    by_contra hrelative
    rw [if_neg hrelative] at h
    split at h <;> cases h
  · intro h
    rw [Path.isEmpty_of_isAbsolute h, if_neg Bool.false_ne_true, if_pos h]

theorem fault?_eq_none_iff {config : Config} : config.fault? = none ↔ config.IsValid := by
  have hdeclared : config.selection.declared.findSome? compilerFault? = none
      ↔ ∀ compiler ∈ config.selection.declared,
        compiler.executable.text.toList.head? = some '/' := by
    simp only [List.findSome?_eq_none_iff, compilerFault?_eq_none_iff]
  have hexcluded : config.selection.excluded.any Path.isEmpty = false
      ↔ ∀ path ∈ config.selection.excluded, path.text ≠ "" := by
    simp only [List.any_eq_false, Bool.not_eq_true, Path.isEmpty_eq_false_iff]
  rw [fault?, Option.orElse_eq_orElse, Option.orElse_eq_or, Option.or_eq_none_iff, hdeclared]
  cases hany : config.selection.excluded.any Path.isEmpty with
  | false => exact ⟨fun h => ⟨h.1, hexcluded.mp hany⟩, fun h => ⟨h.declared, rfl⟩⟩
  | true =>
    refine ⟨fun h => ?_, fun h => ?_⟩
    · cases h.2
    · rw [hexcluded.mpr h.excluded] at hany
      cases hany

/-! ### Loading -/

/-- What becomes of the text of a configuration is decided by the fault that the configuration
has, if any. -/
theorem ofFile_of_holds {config : Config} {value : Json.Value} {text : String}
    (h : config.Renders value) (htext : Json.Holds text value) (path : Path) :
    ofFile path (.ok text.toUTF8)
      = config.fault?.elim (.ok config) fun fault => .error (.invalid fault) := by
  have hutf8 : text.toUTF8.validateUTF8 = true :=
    ByteArray.validateUTF8_eq_true_iff.mpr text.isValidUTF8
  have hdecoded : Json.decodeBytes decoder text.toUTF8 = .ok config := by
    rw [Json.decodeBytes_of_holds decoder htext, decodes config value h]
  simp only [ofFile, hutf8, hdecoded, Bool.not_true, Bool.false_eq_true, if_false]
  cases config.fault? <;> rfl

theorem isValid_of_ofFile {path : Path} {content : Except FileError ByteArray} {config : Config}
    (h : ofFile path content = .ok config) : config.IsValid := by
  rw [← fault?_eq_none_iff]
  unfold ofFile at h
  split at h
  · cases h
  split at h
  · cases h
  split at h
  · cases h
  split at h
  · cases h
  · rename_i hfault
    cases h
    exact hfault

/-- **However a configuration is written, it is loaded if its paths are as they have to be, and
refused for a fault if they are not.**  Each field that has its default may be left out, and each
section all of whose fields have theirs, and every text that holds what is left is as good as any
other.  So a configuration that is written in full is loaded unchanged.  Nothing is ever loaded but
a configuration with such paths. -/
theorem ofFile_of_rendering :
    (∀ (config : Config) (value : Json.Value), config.Renders value →
      (Json.Holds value.compact value ∧ Json.Holds value.render value)
      ∧ ∀ (text : String) (path : Path), Json.Holds text value →
        (config.IsValid → ofFile path (.ok text.toUTF8) = .ok config)
        ∧ (¬ config.IsValid →
          ∃ fault, ofFile path (.ok text.toUTF8) = .error (.invalid fault)))
    ∧ (∀ (config : Config) (path : Path), config.IsValid →
      ofFile path (.ok config.toJson.compact.toUTF8) = .ok config
      ∧ ofFile path (.ok config.toJson.render.toUTF8) = .ok config)
    ∧ ∀ (path : Path) (content : Except FileError ByteArray) (config : Config),
      ofFile path content = .ok config → config.IsValid := by
  have hvalid : ∀ {config : Config} {value : Json.Value} {text : String} (path : Path),
      config.Renders value → Json.Holds text value → config.IsValid →
        ofFile path (.ok text.toUTF8) = .ok config := by
    intro config value text path h htext hconfig
    rw [ofFile_of_holds h htext, fault?_eq_none_iff.mpr hconfig]
    rfl
  have hinvalid : ∀ {config : Config} {value : Json.Value} {text : String} (path : Path),
      config.Renders value → Json.Holds text value → ¬ config.IsValid →
        ∃ fault, ofFile path (.ok text.toUTF8) = .error (.invalid fault) := by
    intro config value text path h htext hconfig
    obtain ⟨fault, hfault⟩ : ∃ fault, config.fault? = some fault :=
      Option.ne_none_iff_exists'.mp fun hnone => hconfig (fault?_eq_none_iff.mp hnone)
    refine ⟨fault, ?_⟩
    rw [ofFile_of_holds h htext, hfault]
    rfl
  refine ⟨fun config value h => ⟨holds_of_renders h, fun text path htext => ?_⟩,
    fun config path hconfig => ?_, fun _ _ _ => isValid_of_ofFile⟩
  · exact ⟨hvalid path h htext, hinvalid path h htext⟩
  · obtain ⟨hcompact, hrender⟩ := holds_of_renders config.renders_toJson
    exact ⟨hvalid path config.renders_toJson hcompact hconfig,
      hvalid path config.renders_toJson hrender hconfig⟩

/-- A configuration with one compiler, most of which is as it is by default. -/
def sparse (executable : String) : Config where
  selection := ⟨[⟨⟨executable⟩, [], ["-g"]⟩], []⟩
  output := ⟨⟨true, true⟩, ⟨false, [], []⟩⟩

/-- It is written without what is as it is by default, and not in the order of the fields. -/
def sparseValue (executable : String) : Json.Value :=
  .record [
    ("output", .record [("format", .record [("drop_output_field", .bool true)])]),
    ("compilation", .record [("compilers_to_recognize", .list [
      .record [("flags_to_remove", .texts ["-g"]), ("executable", .text executable)]])])]

theorem renders_sparseValue (executable : String) :
    (sparse executable).Renders (sparseValue executable) := by
  have hcompiler : DeclaredCompiler.Renders ⟨⟨executable⟩, [], ["-g"]⟩
      (.record [("flags_to_remove", .texts ["-g"]), ("executable", .text executable)]) :=
    ⟨_, _, rfl, .cons (.written rfl) (.cons (.leftOut rfl) (.cons (.written rfl) .nil)),
      .swap _ _ _⟩
  have hselection : Selection.Renders ⟨[⟨⟨executable⟩, [], ["-g"]⟩], []⟩
      (.record [("compilers_to_recognize", .list [
        .record [("flags_to_remove", .texts ["-g"]), ("executable", .text executable)]])]) :=
    ⟨_, _, rfl, .cons (.written ⟨_, rfl, .cons hcompiler .nil⟩) (.cons (.leftOut rfl) .nil), .rfl⟩
  have hformat : EntryFormat.Renders ⟨true, true⟩
      (.record [("drop_output_field", .bool true)]) :=
    ⟨_, _, rfl, .cons (.leftOut rfl) (.cons (.written rfl) .nil), .rfl⟩
  have houtput : OutputOptions.Renders ⟨⟨true, true⟩, ⟨false, [], []⟩⟩
      (.record [("format", .record [("drop_output_field", .bool true)])]) :=
    ⟨_, _, rfl, .cons (.written hformat) (.cons (.leftOut rfl) .nil), .rfl⟩
  exact ⟨_, _, rfl, .cons (.written hselection) (.cons (.written houtput) .nil), .swap _ _ _⟩

theorem ofFile_of_rendering_sparse :
    (sparseValue "/opt/vcc").compact
      = "\x7b\"output\":\x7b\"format\":\x7b\"drop_output_field\":true\x7d\x7d,"
        ++ "\"compilation\":\x7b\"compilers_to_recognize\":"
        ++ "[\x7b\"flags_to_remove\":[\"-g\"],\"executable\":\"/opt/vcc\"\x7d]\x7d\x7d"
    ∧ ofFile ⟨"config.json"⟩ (.ok (sparseValue "/opt/vcc").compact.toUTF8)
      = .ok (sparse "/opt/vcc")
    ∧ ∃ fault, ofFile ⟨"config.json"⟩ (.ok (sparseValue "bin/vcc").compact.toUTF8)
      = .error (.invalid fault) := by
  have hvalid : (sparse "/opt/vcc").IsValid := fault?_eq_none_iff.mp (by decide)
  have hinvalid : ¬ (sparse "bin/vcc").IsValid := fun h =>
    absurd (fault?_eq_none_iff.mpr h) (by decide)
  have hsparse := fun executable => ofFile_of_rendering.1 _ _ (renders_sparseValue executable)
  refine ⟨by cbv, ?_, ?_⟩
  · exact ((hsparse "/opt/vcc").2 _ _ (hsparse "/opt/vcc").1.1).1 hvalid
  · exact ((hsparse "bin/vcc").2 _ _ (hsparse "bin/vcc").1.1).2 hinvalid

end CompileCommands.Config
