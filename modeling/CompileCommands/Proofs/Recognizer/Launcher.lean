/-
Compilers that are called through a launcher.

A call through a launcher should count as the call of the compiler.  It does where the compiler
belongs to a family that reads GCC-like command lines.  It does not where the compiler was
declared with flags of its own or is a launcher itself: these would be found by asking which tool
the compiler belongs to, and a launcher does not ask.
-/
import CompileCommands.Proofs.Compiler.Launcher
import CompileCommands.Proofs.Recognizer.Pruning

namespace CompileCommands.Recognizer

/-- **A call through a launcher is recognized wherever the call of its compiler is**, and it has the
entries of that call just when it has none, or when the tool of the compiler reads the command
line as every GCC-like compiler does. -/
theorem entries_launcher_iff (recognizer : Recognizer) (execution : Execution)
    (launcher : recognizer.select execution.command.program = .ok (.family .launcher))
    {compiler : String} {arguments : List String}
    (operands : execution.command.operands = compiler :: arguments)
    (named : compiler.toList.head? ≠ some '-') :
    ∃ inner, execution.command.launched = .ok inner
      ∧ inner.arguments = compiler :: arguments
      ∧ inner.workingDirectory = execution.command.workingDirectory
      ∧ inner.environment = execution.command.environment
      ∧ ∀ found, recognizer.recognize { execution with command := inner } = .ok found →
        ∃ tool records, recognizer.select inner.program = .ok tool
          ∧ recognizer.recognize execution = .ok records
          ∧ (records.filterMap Invocation.entry = found.filterMap Invocation.entry
            ↔ records.filterMap Invocation.entry = [] ∨ tool.ReadsLikeDriver inner) := by
  obtain ⟨inner, hlaunched, harguments, hdirectory, henvironment⟩ :=
    Command.launched_of_operands operands named
  refine ⟨inner, hlaunched, harguments, hdirectory, henvironment, fun found hfound => ?_⟩
  obtain ⟨tool, hselect, hinvocations⟩ := recognize_eq_ok_iff.mp hfound
  obtain ⟨records, hrecords, hentries⟩ := Tool.entries_driver_iff hinvocations
  have hlaunch : Tool.invocations execution.command (.family .launcher) = .ok records :=
    bind_eq_ok_iff.mpr ⟨inner, hlaunched, hrecords⟩
  exact ⟨tool, records, hselect, recognize_eq_ok_iff.mpr ⟨_, launcher, hlaunch⟩, hentries⟩

/-- A process in a directory. -/
def processOf (program : String) (arguments : List String) : Execution where
  command := ⟨⟨program⟩, arguments, ⟨"/src"⟩, ∅⟩
  run := ⟨⟨1⟩, ⟨0⟩, []⟩

/-- A call of a compiler through a launcher. -/
def cachedCall : Execution := processOf "/usr/bin/ccache" ["ccache", "gcc", "-c", "a.c"]

/-- The call counts as that of the compiler. -/
theorem entries_launcher_cachedCall :
    (ofSelection {}).select cachedCall.command.program = .ok (.family .launcher)
      ∧ cachedCall.command.operands = ["gcc", "-c", "a.c"]
      ∧ "gcc".toList.head? ≠ some '-'
      ∧ (ofSelection {}).contribution cachedCall
        = (ofSelection {}).contribution (processOf "gcc" ["gcc", "-c", "a.c"]) := by
  have hselect : (ofSelection {}).select cachedCall.command.program
      = .ok (.family .launcher) := by decide
  have hnamed : "gcc".toList.head? ≠ some '-' := by decide
  refine ⟨hselect, rfl, hnamed, ?_⟩
  obtain ⟨inner, hlaunched, -, -, -, hentries⟩ :=
    entries_launcher_iff (ofSelection {}) cachedCall hselect rfl hnamed
  cases hlaunched
  obtain ⟨found, hfound⟩ : ∃ found, (ofSelection {}).recognize
      (processOf "gcc" ["gcc", "-c", "a.c"]) = .ok found := ⟨_, rfl⟩
  obtain ⟨tool, records, htool, hrecords, hsame⟩ := hentries found hfound
  have hgcc : (ofSelection {}).select ⟨"gcc"⟩ = .ok (.family .gcc) := by decide
  cases hgcc.symm.trans htool
  rw [contribution, contribution, hrecords, hfound]
  exact hsame.mpr (.inr trivial)

/-- A recognizer with a declared compiler, which gets a flag of its own. -/
def vendorRecognizer : Recognizer :=
  ofSelection { declared := [⟨⟨"/opt/vendor/bin/vcc"⟩, ["-D__VENDOR__"], []⟩] }

/-- A call of that compiler. -/
def vendorCall : Execution :=
  processOf "/opt/vendor/bin/vcc" ["/opt/vendor/bin/vcc", "-c", "a.c"]

/-- The same call through a launcher. -/
def cachedVendorCall : Execution :=
  processOf "/usr/bin/ccache" ["ccache", "/opt/vendor/bin/vcc", "-c", "a.c"]

/-- **Behind a launcher a declared compiler loses its flags.** -/
theorem entries_cachedVendorCall_ne :
    vendorRecognizer.select cachedVendorCall.command.program = .ok (.family .launcher)
      ∧ cachedVendorCall.command.launched = .ok vendorCall.command
      ∧ (∃ found, vendorRecognizer.recognize vendorCall = .ok found)
      ∧ vendorRecognizer.contribution cachedVendorCall
        ≠ vendorRecognizer.contribution vendorCall :=
  ⟨by decide, rfl, ⟨_, rfl⟩, by decide⟩

end CompileCommands.Recognizer
