/-
A report is read as it was written.

A written record names each of its fields once, so its decoder fills a draft with them one by
one, and the draft becomes the record that was written.  Three fields can be left out: the
parent of a process when it is process 0, and the status and the signal of an event when there
are none.  Nothing is lost by that, since these are just the values that the decoders supply for
a field that does not come.  A text that somebody else wrote may hold more, such as unknown names,
`null` for what is not there, or a variable that is set twice, but the report that it is read as
is a report like any other.
-/
import Mathlib.Control.Monad.Basic
import CompileCommands.Proofs.Json.Decode
import CompileCommands.Proofs.Json.Writing
import CompileCommands.Trace.Format

namespace CompileCommands

open Json (Decoder readingMembers)

/-- The names of the fields that a record is written with. -/
def Json.Value.names : Json.Value → List String
  | .record fields => fields.map (·.1)
  | _ => []

/-! ### Single values -/

theorem Path.decoder_toJson (path : Path) : decoder path.toJson.reading = .ok path := rfl

namespace Dictionary

theorem decoder_toJson (dictionary : Dictionary) :
    Decoder.dictionary (toJson dictionary).reading = .ok dictionary :=
  Decoder.dictionary_reading dictionary

theorem fits_toJson (dictionary : Dictionary) : (toJson dictionary).Fits := by
  rw [toJson, Json.Value.Fits]
  induction dictionary.toList with
  | nil => trivial
  | cons pair pairs ih => exact ⟨trivial, ih⟩

end Dictionary

namespace Pid

theorem decoder_toJson (pid : Pid) : decoder pid.toJson.reading = .ok pid := by
  rw [decoder, toJson, Decoder.word_reading]
  rfl

theorem fits_toJson (pid : Pid) : pid.toJson.Fits := Json.fitsNumber_word pid.number

end Pid

/-! ### Commands -/

namespace Command

theorem decoder_toJson (command : Command) : decoder command.toJson.reading = .ok command := by
  have hread : Decoder.members fields {} (readingMembers [
      ("program", command.program.toJson),
      ("arguments", .texts command.arguments),
      ("working_dir", command.workingDirectory.toJson),
      ("environment", Dictionary.toJson command.environment)])
        = .ok ⟨some command.program, some command.arguments, some command.workingDirectory,
            some command.environment⟩ :=
    (Decoder.members_of rfl rfl command.program.decoder_toJson _).trans <|
      (Decoder.members_of rfl rfl (Decoder.list_text_reading command.arguments) _).trans <|
      (Decoder.members_of rfl rfl command.workingDirectory.decoder_toJson _).trans <|
      (Decoder.members_of rfl rfl (Dictionary.decoder_toJson command.environment) _).trans rfl
  rw [decoder, toJson, Decoder.record_reading hread]
  rfl

theorem fits_toJson (command : Command) : command.toJson.Fits :=
  ⟨trivial, Json.fits_texts _, trivial, Dictionary.fits_toJson _, trivial⟩

end Command

/-! ### Runs -/

namespace Event

theorem decoder_toJson (event : Event) : decoder event.toJson.reading = .ok event := by
  obtain ⟨time, kind, status, signal⟩ := event
  have hread : Decoder.members fields {} (readingMembers
      (("at", .text time) :: ("type", .text kind)
        :: (Json.Value.optionalField "status" (fun n => .number n.toInt) status
          ++ (Json.Value.optionalField "signal" (fun n => .number n.toInt) signal ++ []))))
        = .ok ⟨some time, some kind, status.map some, signal.map some⟩ := by
    refine (Decoder.members_of rfl rfl (Decoder.text_reading time) _).trans <|
      (Decoder.members_of rfl rfl (Decoder.text_reading kind) _).trans <|
      (Decoder.members_of_optional rfl rfl Decoder.optional_integer_reading _).trans <|
      (Decoder.members_of_optional rfl ?_ Decoder.optional_integer_reading _).trans ?_
    -- With or without a status, no signal has been read so far.
    · cases status <;> rfl
    · cases status <;> cases signal <;> rfl
  rw [List.append_nil] at hread
  rw [decoder, toJson, List.append_assoc]
  refine (Decoder.record_reading hread).trans ?_
  cases status <;> cases signal <;> rfl

theorem fits_toJson (event : Event) : event.toJson.Fits := by
  have hnumber : ∀ n : Int32, (Json.Value.number n.toInt).Fits := Json.fitsNumber_integer
  refine Json.fitFields_append.mpr ⟨Json.fitFields_append.mpr ⟨⟨trivial, trivial, trivial⟩, ?_⟩, ?_⟩
  · exact Json.fitFields_optionalField hnumber event.status
  · exact Json.fitFields_optionalField hnumber event.signal

/-- The status and the signal are written when there are some. -/
theorem mem_names_toJson_iff (event : Event) :
    ("status" ∈ event.toJson.names ↔ event.status ≠ none)
      ∧ ("signal" ∈ event.toJson.names ↔ event.signal ≠ none) := by
  obtain ⟨time, kind, status, signal⟩ := event
  cases status <;> cases signal <;> simp [toJson, Json.Value.names, Json.Value.optionalField]

end Event

namespace Run

theorem decoder_toJson (run : Run) : decoder run.toJson.reading = .ok run := by
  obtain ⟨pid, parent, events⟩ := run
  have hevents : Decoder.list Event.decoder (Json.Value.list (events.map Event.toJson)).reading
      = .ok events :=
    Decoder.list_reading_self fun event _ => event.decoder_toJson
  by_cases hparent : parent = ⟨0⟩
  · have hread : Decoder.members fields {} (readingMembers [
        ("pid", pid.toJson), ("events", .list (events.map Event.toJson))])
          = .ok ⟨some pid, none, some events⟩ :=
      (Decoder.members_of rfl rfl pid.decoder_toJson _).trans <|
        (Decoder.members_of rfl rfl hevents _).trans rfl
    rw [decoder, toJson, if_pos hparent, hparent]
    exact Decoder.record_reading hread
  · have hread : Decoder.members fields {} (readingMembers [
        ("pid", pid.toJson), ("ppid", parent.toJson), ("events", .list (events.map Event.toJson))])
          = .ok ⟨some pid, some parent, some events⟩ :=
      (Decoder.members_of rfl rfl pid.decoder_toJson _).trans <|
        (Decoder.members_of rfl rfl parent.decoder_toJson _).trans <|
        (Decoder.members_of rfl rfl hevents _).trans rfl
    rw [decoder, toJson, if_neg hparent]
    exact Decoder.record_reading hread

theorem fits_toJson (run : Run) : run.toJson.Fits := by
  have hevents : Json.FitItems (run.events.map Event.toJson) :=
    Json.fitItems_map fun event _ => event.fits_toJson
  have hparent : Json.FitFields
      (if run.parent = ⟨0⟩ then [] else [("ppid", run.parent.toJson)]) := by
    split
    · trivial
    · exact ⟨run.parent.fits_toJson, trivial⟩
  exact Json.fitFields_append.mpr
    ⟨Json.fitFields_append.mpr ⟨⟨run.pid.fits_toJson, trivial⟩, hparent⟩, hevents, trivial⟩

/-- The parent is written unless it is process 0. -/
theorem mem_names_toJson_iff (run : Run) : "ppid" ∈ run.toJson.names ↔ run.parent ≠ ⟨0⟩ := by
  rw [toJson]
  split
  · rename_i hparent
    simp [Json.Value.names, hparent]
  · rename_i hparent
    simp [Json.Value.names, hparent]

end Run

/-! ### Executions -/

namespace Execution

theorem decoder_toJson (execution : Execution) :
    decoder execution.toJson.reading = .ok execution := by
  have hread : Decoder.members fields {} (readingMembers [
      ("command", execution.command.toJson), ("run", execution.run.toJson)])
        = .ok ⟨some execution.command, some execution.run⟩ :=
    (Decoder.members_of rfl rfl execution.command.decoder_toJson _).trans <|
      (Decoder.members_of rfl rfl execution.run.decoder_toJson _).trans rfl
  rw [decoder, toJson, Decoder.record_reading hread]
  rfl

theorem fits_toJson (execution : Execution) : execution.toJson.Fits :=
  ⟨execution.command.fits_toJson, execution.run.fits_toJson, trivial⟩

end Execution

/-! ### Reports -/

namespace Session

theorem decoder_toJson (session : Session) : decoder session.toJson.reading = .ok session := by
  have hread : Decoder.members fields {} (readingMembers [
      ("intercept", .text session.method), ("host_info", Dictionary.toJson session.host)])
        = .ok ⟨some session.method, some session.host⟩ :=
    (Decoder.members_of rfl rfl (Decoder.text_reading session.method) _).trans <|
      (Decoder.members_of rfl rfl (Dictionary.decoder_toJson session.host) _).trans rfl
  rw [decoder, toJson, Decoder.record_reading hread]
  rfl

theorem fits_toJson (session : Session) : session.toJson.Fits :=
  ⟨trivial, Dictionary.fits_toJson _, trivial⟩

end Session

namespace Report

theorem decoder_toJson (report : Report) : decoder report.toJson.reading = .ok report := by
  have hexecutions : Decoder.list Execution.decoder
      (Json.Value.list (report.executions.map Execution.toJson)).reading
        = .ok report.executions :=
    Decoder.list_reading_self fun execution _ => execution.decoder_toJson
  have hread : Decoder.members fields {} (readingMembers [
      ("context", report.session.toJson),
      ("executions", .list (report.executions.map Execution.toJson))])
        = .ok ⟨some report.session, some report.executions⟩ :=
    (Decoder.members_of rfl rfl report.session.decoder_toJson _).trans <|
      (Decoder.members_of rfl rfl hexecutions _).trans rfl
  rw [decoder, toJson, Decoder.record_reading hread]
  rfl

theorem fits_toJson (report : Report) : report.toJson.Fits :=
  ⟨report.session.fits_toJson, Json.fitItems_map fun execution _ => execution.fits_toJson, trivial⟩

/-- However a report is laid out, it is read. -/
theorem ofFile_of_holds (report : Report) {text : String} (h : Json.Holds text report.toJson) :
    ofFile (.ok text.toUTF8) = .ok report := by
  rw [ofFile, Json.decodeFile, Json.decodeBytes_of_holds decoder h]
  exact report.decoder_toJson

theorem ofFile_compact (report : Report) :
    ofFile (.ok report.toJson.compact.toUTF8) = .ok report :=
  report.ofFile_of_holds (Json.holds_compact report.fits_toJson)

theorem ofFile_render (report : Report) :
    ofFile (.ok report.toJson.render.toUTF8) = .ok report :=
  report.ofFile_of_holds (Json.holds_render report.fits_toJson)

/-- **A report is read as it was written**, on one line or on many, though a parent that is
process 0 is not written, nor are a status and a signal that are none.  So whatever text a
report was read from, what is written of it is read as the same report. -/
theorem ofFile_inverts_toJson :
    (∀ report : Report,
      ofFile (.ok report.toJson.compact.toUTF8) = .ok report
      ∧ ofFile (.ok report.toJson.render.toUTF8) = .ok report)
    ∧ (∀ run : Run, "ppid" ∈ run.toJson.names ↔ run.parent ≠ ⟨0⟩)
    ∧ (∀ event : Event,
      ("status" ∈ event.toJson.names ↔ event.status ≠ none)
      ∧ ("signal" ∈ event.toJson.names ↔ event.signal ≠ none))
    ∧ ∀ (content : Except FileError ByteArray) (report : Report), ofFile content = .ok report →
      ofFile (.ok report.toJson.compact.toUTF8) = .ok report
      ∧ ofFile (.ok report.toJson.render.toUTF8) = .ok report := by
  have hread : ∀ report : Report,
      ofFile (.ok report.toJson.compact.toUTF8) = .ok report
      ∧ ofFile (.ok report.toJson.render.toUTF8) = .ok report :=
    fun report => ⟨report.ofFile_compact, report.ofFile_render⟩
  exact ⟨hread, Run.mem_names_toJson_iff, Event.mem_names_toJson_iff,
    fun _ report _ => hread report⟩

/-- A text with an unknown name, a run that is written as a list, with the parent 0, a signal that
is `null`, and a variable that is set twice. -/
def looseTrace : String :=
  "\x7b\"comment\": [1.5], \"executions\": [\x7b\"run\": [1, 0, [\x7b\"at\": \"12:00\", "
    ++ "\"type\": \"end\", \"status\": -1, \"signal\": null\x7d]], "
    ++ "\"command\": \x7b\"program\": \"cc\", \"arguments\": [\"cc\", \"\\u00e9\"], "
    ++ "\"working_dir\": \"/\", "
    ++ "\"environment\": \x7b\"CC\": \"gcc\", \"CC\": \"clang\"\x7d\x7d\x7d]\x7d"

def looseReport : Report where
  executions := [{
    command := ⟨⟨"cc"⟩, ["cc", "é"], ⟨"/"⟩, (∅ : Dictionary).insert "CC" "clang"⟩
    run := ⟨⟨1⟩, ⟨0⟩, [⟨"12:00", "end", some (-1), none⟩]⟩ }]

theorem ofFile_looseTrace : ofFile (.ok looseTrace.toUTF8) = .ok looseReport := by
  decide +kernel

theorem ofFile_written_looseReport :
    ofFile (.ok looseTrace.toUTF8) = .ok looseReport
      ∧ ofFile (.ok looseReport.toJson.compact.toUTF8) = .ok looseReport
      ∧ ofFile (.ok looseReport.toJson.render.toUTF8) = .ok looseReport :=
  ⟨ofFile_looseTrace, ofFile_inverts_toJson.2.2.2 _ _ ofFile_looseTrace⟩

end Report

end CompileCommands
