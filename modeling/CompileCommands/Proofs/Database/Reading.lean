/-
What a database is read as.

A text is a list of records or it is not, and only when it is are the records looked at.  Each of
them stands for one entry or has one thing wrong with it: it gives no command line, its command
cannot be split, or a field of its entry is empty, and what comes first in this order is reported.
`Stands` and `Fails` say so of a single record, without going through it step by step.

A database is all its records or nothing.  Either each of them stands for an entry, and these are
the entries in their order, or one of them fails with all those in front of it being sound, and
then its error is the one that is reported.
-/
import CompileCommands.Proofs.Database.RoundTrip
import CompileCommands.Proofs.Result

namespace CompileCommands

/-! ### Fields that say nothing -/

namespace Entry

/-- All fields of the entry say something. -/
structure IsComplete (entry : Entry) : Prop where
  file : entry.file.text ≠ ""
  directory : entry.directory.text ≠ ""
  /-- There need not be an output. -/
  output : entry.output ≠ some ⟨""⟩
  arguments : entry.arguments ≠ []

/-- The first field of the entry that says nothing. -/
inductive Lacks (entry : Entry) : Fault → Prop
  | file (h : entry.file.text = "") : Lacks entry .emptyFile
  | directory (hfile : entry.file.text ≠ "") (h : entry.directory.text = "") :
      Lacks entry .emptyDirectory
  | output (hfile : entry.file.text ≠ "") (hdirectory : entry.directory.text ≠ "")
      (h : entry.output = some ⟨""⟩) : Lacks entry .emptyOutput
  | arguments (hfile : entry.file.text ≠ "") (hdirectory : entry.directory.text ≠ "")
      (houtput : entry.output ≠ some ⟨""⟩) (h : entry.arguments = []) : Lacks entry .noArguments

theorem any_isEmpty_iff {output : Option Path} :
    output.any Path.isEmpty = true ↔ output = some ⟨""⟩ := by
  cases output with
  | none => simp
  | some path =>
    obtain ⟨text⟩ := path
    simp [Path.isEmpty]

/-- The checks of an entry look at its fields one after the other. -/
theorem fault?_eq (entry : Entry) :
    entry.fault? = if entry.file.text = "" then some .emptyFile
      else if entry.directory.text = "" then some .emptyDirectory
      else if entry.output = some ⟨""⟩ then some .emptyOutput
      else if entry.arguments = [] then some .noArguments
      else none := by
  simp only [fault?, any_isEmpty_iff, Path.isEmpty, String.isEmpty_iff, List.isEmpty_iff]

theorem fault?_of_isComplete {entry : Entry} (h : entry.IsComplete) : entry.fault? = none := by
  rw [fault?_eq, if_neg h.file, if_neg h.directory, if_neg h.output, if_neg h.arguments]

theorem fault?_of_lacks {entry : Entry} {fault : Fault} (h : entry.Lacks fault) :
    entry.fault? = some fault := by
  rw [fault?_eq]
  cases h with
  | file h => rw [if_pos h]
  | directory hfile h => rw [if_neg hfile, if_pos h]
  | output hfile hdirectory h => rw [if_neg hfile, if_neg hdirectory, if_pos h]
  | arguments hfile hdirectory houtput h =>
    rw [if_neg hfile, if_neg hdirectory, if_neg houtput, if_pos h]

/-- An entry is complete or lacks something. -/
theorem isComplete_or_lacks (entry : Entry) : entry.IsComplete ∨ ∃ fault, entry.Lacks fault := by
  by_cases hfile : entry.file.text = ""
  · exact .inr ⟨_, .file hfile⟩
  by_cases hdirectory : entry.directory.text = ""
  · exact .inr ⟨_, .directory hfile hdirectory⟩
  by_cases houtput : entry.output = some ⟨""⟩
  · exact .inr ⟨_, .output hfile hdirectory houtput⟩
  by_cases harguments : entry.arguments = []
  · exact .inr ⟨_, .arguments hfile hdirectory houtput harguments⟩
  · exact .inl ⟨hfile, hdirectory, houtput, harguments⟩

end Entry

/-! ### Records -/

namespace StoredEntry

variable {stored : StoredEntry}

/-- The command line that a record gives. -/
inductive GivesLine (stored : StoredEntry) : List String → Prop
  /-- Its arguments, whether there is a command besides or not. -/
  | arguments {words : List String} (h : stored.arguments = some words) : GivesLine stored words
  | command {command : String} {words : List String} (hnone : stored.arguments = none)
      (h : stored.command = some command) (hsplit : Shell.split command = .ok words) :
      GivesLine stored words

/-- The record stands for the entry. -/
structure Stands (stored : StoredEntry) (entry : Entry) : Prop where
  file : entry.file = stored.file
  directory : entry.directory = stored.directory
  output : entry.output = stored.output
  line : stored.GivesLine entry.arguments
  complete : entry.IsComplete

/-- The record stands for no entry, and this is what is wrong with it. -/
inductive Fails (stored : StoredEntry) : DatabaseError → Prop
  | noLine (harguments : stored.arguments = none) (hcommand : stored.command = none) :
      Fails stored (.invalid .noCommand)
  | noWords {command : String} {cause : Shell.SplitError} (harguments : stored.arguments = none)
      (hcommand : stored.command = some command) (hsplit : Shell.split command = .error cause) :
      Fails stored (.command cause)
  /-- Empty fields are looked for when there is a command line. -/
  | incomplete {words : List String} {fault : Entry.Fault} (hline : stored.GivesLine words)
      (h : Entry.Lacks ⟨stored.file, stored.directory, stored.output, words⟩ fault) :
      Fails stored (.invalid fault)

theorem commandLine_of_givesLine {words : List String} (h : stored.GivesLine words) :
    stored.commandLine = .ok words := by
  cases h with
  | arguments h => rw [commandLine, h]
  | command hnone h hsplit => simp only [commandLine, hnone, h, hsplit]

theorem toEntry_of_stands {entry : Entry} (h : stored.Stands entry) :
    stored.toEntry = .ok entry := by
  refine toEntry_eq_ok_iff.mpr
    ⟨entry.arguments, commandLine_of_givesLine h.line, ?_, Entry.fault?_of_isComplete h.complete⟩
  rw [← h.file, ← h.directory, ← h.output]

theorem toEntry_of_fails {error : DatabaseError} (h : stored.Fails error) :
    stored.toEntry = .error error := by
  cases h with
  | noLine harguments hcommand =>
    have hline : stored.commandLine = .error (.invalid .noCommand) := by
      simp only [commandLine, harguments, hcommand]
    exact bind_eq_error_iff.mpr (.inl hline)
  | noWords harguments hcommand hsplit =>
    rename_i cause
    have hline : stored.commandLine = .error (.command cause) := by
      simp only [commandLine, harguments, hcommand, hsplit]
    exact bind_eq_error_iff.mpr (.inl hline)
  | @incomplete words fault hline h =>
    refine bind_eq_error_iff.mpr (.inr ⟨words, commandLine_of_givesLine hline, ?_⟩)
    simp only [Entry.fault?_of_lacks h]
    rfl

/-- A record stands for an entry or fails. -/
theorem stands_or_fails (stored : StoredEntry) :
    (∃ entry, stored.Stands entry) ∨ ∃ error, stored.Fails error := by
  have hline : (∃ words, stored.GivesLine words) ∨ ∃ error, stored.Fails error := by
    cases harguments : stored.arguments with
    | some words => exact .inl ⟨words, .arguments harguments⟩
    | none =>
      cases hcommand : stored.command with
      | none => exact .inr ⟨_, .noLine harguments hcommand⟩
      | some command =>
        cases hsplit : Shell.split command with
        | ok words => exact .inl ⟨words, .command harguments hcommand hsplit⟩
        | error cause => exact .inr ⟨_, .noWords harguments hcommand hsplit⟩
  rcases hline with ⟨words, hline⟩ | hfails
  · rcases Entry.isComplete_or_lacks ⟨stored.file, stored.directory, stored.output, words⟩
      with hcomplete | ⟨fault, hlacks⟩
    · exact .inl ⟨_, rfl, rfl, rfl, hline, hcomplete⟩
    · exact .inr ⟨_, .incomplete hline hlacks⟩
  · exact .inr hfails

theorem toEntry_eq_ok_iff_stands {entry : Entry} :
    stored.toEntry = .ok entry ↔ stored.Stands entry := by
  refine ⟨fun h => ?_, toEntry_of_stands⟩
  rcases stored.stands_or_fails with ⟨found, hfound⟩ | ⟨error, herror⟩
  · rw [toEntry_of_stands hfound] at h
    exact Except.ok.inj h ▸ hfound
  · rw [toEntry_of_fails herror] at h
    cases h

theorem toEntry_eq_error_iff {error : DatabaseError} :
    stored.toEntry = .error error ↔ stored.Fails error := by
  refine ⟨fun h => ?_, toEntry_of_fails⟩
  rcases stored.stands_or_fails with ⟨entry, hentry⟩ | ⟨found, hfound⟩
  · rw [toEntry_of_stands hentry] at h
    cases h
  · rw [toEntry_of_fails hfound] at h
    exact Except.error.inj h ▸ hfound

/-- A record that fails has been decoded. -/
theorem Fails.ne_json {error : DatabaseError} (h : stored.Fails error) (cause : Json.Error) :
    error ≠ .json cause := by
  cases h <;> nofun

end StoredEntry

/-! ### Databases -/

namespace Database

/-- The database has a record that fails, and those in front of it are sound. -/
def FailsFirst (records : List StoredEntry) (error : DatabaseError) : Prop :=
  ∃ before record after, records = before ++ record :: after
    ∧ (∀ earlier ∈ before, ∃ entry, earlier.Stands entry) ∧ record.Fails error

theorem mapM_toEntry_eq_ok_iff {records : List StoredEntry} {entries : List Entry} :
    records.mapM StoredEntry.toEntry = .ok entries
      ↔ List.Forall₂ StoredEntry.Stands records entries := by
  rw [mapM_eq_ok_iff]
  simp only [StoredEntry.toEntry_eq_ok_iff_stands]

theorem exists_mapM_toEntry_eq_ok_iff {records : List StoredEntry} :
    (∃ entries, records.mapM StoredEntry.toEntry = .ok entries)
      ↔ ∀ record ∈ records, ∃ entry, record.Stands entry := by
  rw [exists_mapM_eq_ok_iff]
  simp only [StoredEntry.toEntry_eq_ok_iff_stands]

theorem mapM_toEntry_eq_error_iff {records : List StoredEntry} {error : DatabaseError} :
    records.mapM StoredEntry.toEntry = .error error ↔ FailsFirst records error := by
  rw [mapM_eq_error_iff, FailsFirst]
  simp only [StoredEntry.toEntry_eq_ok_iff_stands, StoredEntry.toEntry_eq_error_iff]

/-- **A database is all its records or nothing.**  A text that is no list of records fails as JSON,
whatever its records are like.  Otherwise there is an entry for every record, in their order, or the
error is that of the first record that stands for none. -/
theorem read_all_or_nothing (content : Except FileError ByteArray) :
    (∀ cause, read content = .error (.json cause)
      ↔ Json.decodeFile (Json.Decoder.list StoredEntry.decoder) content = .error cause)
    ∧ ∀ records, Json.decodeFile (Json.Decoder.list StoredEntry.decoder) content = .ok records →
      ((∃ entries, read content = .ok entries) ↔ ∀ record ∈ records, ∃ entry, record.Stands entry)
      ∧ (∀ entries, read content = .ok entries ↔ List.Forall₂ StoredEntry.Stands records entries)
      ∧ ∀ error, read content = .error error ↔ FailsFirst records error := by
  unfold read
  cases Json.decodeFile (Json.Decoder.list StoredEntry.decoder) content with
  | error cause =>
    refine ⟨fun other => by simp, fun records hrecords => ?_⟩
    cases hrecords
  | ok found =>
    refine ⟨fun cause => ⟨fun h => ?_, fun h => ?_⟩, fun records hrecords => ?_⟩
    · obtain ⟨_, _, _, -, -, hfails⟩ := mapM_toEntry_eq_error_iff.mp h
      exact absurd rfl (hfails.ne_json cause)
    · cases h
    · cases hrecords
      exact ⟨exists_mapM_toEntry_eq_ok_iff, fun _ => mapM_toEntry_eq_ok_iff,
        fun _ => mapM_toEntry_eq_error_iff⟩

/-- The first record has a command that cannot be split, but also arguments.  The third one has such
a command too and no file, and the last one has nothing at all. -/
def mixedRecords : List StoredEntry := [
  ⟨⟨"a.c"⟩, ⟨"/"⟩, none, some ["cc"], some "'"⟩,
  ⟨⟨"b.c"⟩, ⟨"/"⟩, none, none, some "cc 'b c'"⟩,
  ⟨⟨""⟩, ⟨"/"⟩, none, none, some "cc 'c.c"⟩,
  ⟨⟨""⟩, ⟨""⟩, none, none, none⟩]

theorem failsFirst_mixedRecords :
    FailsFirst mixedRecords (.command .unterminatedSingleQuote) := by
  have hsplit : Shell.split "cc 'b c'" = .ok ["cc", "b c"] := by cbv
  have hopen : Shell.split "cc 'c.c" = .error .unterminatedSingleQuote := by cbv
  refine ⟨mixedRecords.take 2, _, _, rfl, ?_, .noWords rfl rfl hopen⟩
  intro earlier hearlier
  rcases List.mem_pair.mp hearlier with rfl | rfl
  · exact ⟨⟨⟨"a.c"⟩, ⟨"/"⟩, none, ["cc"]⟩, rfl, rfl, rfl, .arguments rfl, by decide, by decide,
      by decide, by decide⟩
  · exact ⟨⟨⟨"b.c"⟩, ⟨"/"⟩, none, ["cc", "b c"]⟩, rfl, rfl, rfl, .command rfl rfl hsplit, by decide,
      by decide, by decide, by decide⟩

/-- What is written of these records. -/
def mixedText : String :=
  (Json.Value.list (mixedRecords.map StoredEntry.toJson)).render ++ "\n"

theorem decodeFile_mixedText :
    Json.decodeFile (Json.Decoder.list StoredEntry.decoder) (.ok mixedText.toUTF8)
      = .ok mixedRecords := by
  have hfits : (Json.Value.list (mixedRecords.map StoredEntry.toJson)).Fits :=
    Json.fitItems_map fun record _ => record.fits_toJson
  rw [Json.decodeFile, mixedText, Json.decodeBytes_render _ hfits]
  exact Json.Decoder.list_reading_self fun record _ => record.decoder_toJson

/-- The first record that fails counts, unless what follows is no record. -/
theorem read_all_or_nothing_mixed :
    Json.decodeFile (Json.Decoder.list StoredEntry.decoder) (.ok mixedText.toUTF8)
        = .ok mixedRecords
      ∧ read (.ok mixedText.toUTF8) = .error (.command .unterminatedSingleQuote)
      ∧ read (.ok "[\x7b\"file\": \"\", \"directory\": \"\"\x7d, 5]".toUTF8)
        = .error (.json (.mismatch (.wrongType (.number (.natural 5)) (.record "JsonEntry")))) := by
  refine ⟨decodeFile_mixedText, ?_, ?_⟩
  · exact (((read_all_or_nothing _).2 _ decodeFile_mixedText).2.2 _).mpr failsFirst_mixedRecords
  · exact ((read_all_or_nothing _).1 _).mpr (by decide +kernel)

end Database

end CompileCommands
