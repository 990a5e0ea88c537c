/-
What is written as a database is read back.

An entry goes through two forms on its way to the file.  It becomes a record, whose command line
is a list or a text for the shell, and the record becomes a JSON value.  Both steps are undone
on the way back: the fields of the value are found again one by one, and the shell splits the
text into the words that were joined.  All that is lost is an output that the format drops, and
so a database that was read and written once does not change any more.
-/
import CompileCommands.Proofs.Conversion.Memory
import CompileCommands.Proofs.Database.Validity
import CompileCommands.Proofs.Json.Decode
import CompileCommands.Proofs.Json.Writing
import CompileCommands.Proofs.Shell.RoundTrip

namespace CompileCommands

open Json (Decoder readingMembers)

/-! ### What a format keeps -/

namespace EntryFormat

/-- An entry as far as it is written. -/
def shown (format : EntryFormat) (entry : Entry) : Entry :=
  { entry with output := if format.dropOutput then none else entry.output }

theorem fault?_shown (format : EntryFormat) {entry : Entry} (h : entry.fault? = none) :
    (format.shown entry).fault? = none := by
  obtain ⟨hfile, hdirectory, houtput, harguments⟩ := Entry.fault?_eq_none_iff.mp h
  refine Entry.fault?_eq_none_iff.mpr ⟨hfile, hdirectory, ?_, harguments⟩
  intro output hshown
  unfold shown at hshown
  cases hdrop : format.dropOutput with
  | true =>
    rw [hdrop] at hshown
    cases hshown
  | false =>
    rw [hdrop] at hshown
    exact houtput output hshown

theorem shown_shown (format : EntryFormat) (entry : Entry) :
    format.shown (format.shown entry) = format.shown entry := by
  unfold shown
  cases format.dropOutput <;> rfl

end EntryFormat

/-! ### Records -/

namespace StoredEntry

/-- The draft of a record whose written fields have all been read. -/
def draftOf (file directory : Path) (output : Option Path) (arguments : Option (List String))
    (command : Option String) : Draft where
  file := some file
  directory := some directory
  output := output.map some
  arguments := arguments.map some
  command := command.map some

section Fields

variable (file directory : Path) (output : Option Path) (arguments : Option (List String))
  (command : Option String) (others : List (String × Json.Value))

private theorem members_paths : Decoder.members fields {}
    (readingMembers (("file", file.toJson) :: ("directory", directory.toJson) :: others))
      = Decoder.members fields (draftOf file directory none none none) (readingMembers others) :=
  (Decoder.members_field rfl rfl rfl _).trans (Decoder.members_field rfl rfl rfl _)

private theorem members_output : Decoder.members fields (draftOf file directory none none none)
    (readingMembers (Json.Value.optionalField "output" Path.toJson output ++ others))
      = Decoder.members fields (draftOf file directory output none none)
          (readingMembers others) :=
  Decoder.members_optionalField (draftOf file directory · none none) rfl rfl (fun _ => rfl) rfl
    others

private theorem members_arguments :
    Decoder.members fields (draftOf file directory output none none)
      (readingMembers (Json.Value.optionalField "arguments" .texts arguments ++ others))
        = Decoder.members fields (draftOf file directory output arguments none)
            (readingMembers others) := by
  refine Decoder.members_optionalField (draftOf file directory output · none) rfl rfl ?_ rfl others
  intro words
  simp only [Json.RecordField.of, Decoder.optional_texts_reading]
  rfl

private theorem members_command :
    Decoder.members fields (draftOf file directory output arguments none)
      (readingMembers (Json.Value.optionalField "command" .text command ++ others))
        = Decoder.members fields (draftOf file directory output arguments command)
            (readingMembers others) :=
  Decoder.members_optionalField (draftOf file directory output arguments ·) rfl rfl
    (fun _ => rfl) rfl others

end Fields

/-- A written record is decoded as the record it was written from. -/
theorem decoder_toJson (stored : StoredEntry) : decoder stored.toJson.reading = .ok stored := by
  obtain ⟨file, directory, output, arguments, command⟩ := stored
  have hdraft : Decoder.members fields {} (readingMembers
      (("file", file.toJson) :: ("directory", directory.toJson)
        :: (Json.Value.optionalField "output" Path.toJson output
          ++ (Json.Value.optionalField "arguments" .texts arguments
            ++ (Json.Value.optionalField "command" .text command ++ [])))))
        = .ok (draftOf file directory output arguments command) := by
    rw [members_paths, members_output, members_arguments, members_command]
    rfl
  rw [decoder, toJson, Json.Value.reading, Decoder.record]
  simp only [List.cons_append, List.nil_append, List.append_nil, List.append_assoc] at hdraft ⊢
  rw [hdraft]
  cases output <;> cases arguments <;> cases command <;> rfl

theorem fits_toJson (stored : StoredEntry) : stored.toJson.Fits := by
  obtain ⟨file, directory, output, arguments, command⟩ := stored
  cases output <;> cases arguments <;> cases command <;>
    simp [toJson, Json.Value.optionalField, Path.toJson, Json.Value.Fits, Json.FitFields,
      Json.fits_texts]

/-! ### Records and entries -/

theorem commandLine_ofEntry (format : EntryFormat) (entry : Entry) :
    (ofEntry format entry).commandLine = .ok entry.arguments := by
  unfold ofEntry commandLine
  cases format.commandAsList with
  | true => rfl
  | false => simp [Shell.split_join]

/-- A record becomes the entry of its fields and its command line, unless that has a fault. -/
theorem toEntry_eq_ok_iff {stored : StoredEntry} {entry : Entry} :
    stored.toEntry = .ok entry
      ↔ ∃ arguments, stored.commandLine = .ok arguments
        ∧ entry = ⟨stored.file, stored.directory, stored.output, arguments⟩
        ∧ entry.fault? = none := by
  rw [toEntry, bind_eq_ok_iff]
  refine exists_congr fun arguments => and_congr_right fun _ => ⟨fun h => ?_, fun h => ?_⟩
  · dsimp only at h
    split at h
    · rename_i hfault
      cases h
      exact ⟨rfl, hfault⟩
    · cases h
  · obtain ⟨rfl, hfault⟩ := h
    simp only [hfault]
    rfl

/-- What is written of an entry without a fault is the entry of its record. -/
theorem toEntry_ofEntry (format : EntryFormat) {entry : Entry} (h : entry.fault? = none) :
    (ofEntry format entry).toEntry = .ok (format.shown entry) :=
  toEntry_eq_ok_iff.mpr
    ⟨entry.arguments, commandLine_ofEntry format entry, rfl, format.fault?_shown h⟩

/-- What is written of an entry with a fault cannot be read. -/
theorem toEntry_ofEntry_of_fault (format : EntryFormat) {entry : Entry} {fault : Entry.Fault}
    (h : (format.shown entry).fault? = some fault) :
    (ofEntry format entry).toEntry = .error (.invalid fault) := by
  rw [toEntry, commandLine_ofEntry]
  dsimp only [bind, Except.bind]
  split
  · rename_i hnone
    cases h.symm.trans hnone
  · rename_i found hfound
    rw [Option.some.inj (h.symm.trans hfound)]
    rfl

/-- What is left out of an entry is not written in the first place. -/
theorem ofEntry_shown (format : EntryFormat) (entry : Entry) :
    ofEntry format (format.shown entry) = ofEntry format entry := by
  unfold ofEntry EntryFormat.shown
  cases format.dropOutput <;> rfl

end StoredEntry

/-! ### Databases -/

namespace Database

/-- A written database is read record by record. -/
theorem read_render_eq_mapM (format : EntryFormat) (entries : List Entry) :
    read (.ok (render format entries).toUTF8)
      = entries.mapM fun entry => (StoredEntry.ofEntry format entry).toEntry := by
  have hfits : (Json.Value.list
      (entries.map fun entry => (StoredEntry.ofEntry format entry).toJson)).Fits :=
    Json.fitItems_map fun entry _ => StoredEntry.fits_toJson _
  have hdecode : Json.decodeFile (Decoder.list StoredEntry.decoder)
      (.ok (render format entries).toUTF8)
        = .ok (entries.map (StoredEntry.ofEntry format)) := by
    rw [Json.decodeFile, render, Json.decodeBytes_render _ hfits]
    exact Decoder.list_reading fun entry _ => StoredEntry.decoder_toJson _
  rw [read, hdecode]
  show (entries.map (StoredEntry.ofEntry format)).mapM StoredEntry.toEntry = _
  rw [List.mapM_map]
  rfl

/-- A written database is read as the entries that it was written from. -/
theorem read_render (format : EntryFormat) {entries : List Entry}
    (h : ∀ entry ∈ entries, entry.fault? = none) :
    read (.ok (render format entries).toUTF8) = .ok (entries.map format.shown) := by
  rw [read_render_eq_mapM]
  exact mapM_eq_ok_of_forall fun entry hentry => StoredEntry.toEntry_ofEntry format (h entry hentry)

/-- No entry that is read has a fault. -/
theorem fault?_of_read {content : Except FileError ByteArray} {entries : List Entry}
    (h : read content = .ok entries) : ∀ entry ∈ entries, entry.fault? = none := by
  unfold read at h
  split at h
  · intro entry hentry
    obtain ⟨stored, -, hstored⟩ := mem_of_mapM_eq_ok h entry hentry
    obtain ⟨_, -, -, hfault⟩ := StoredEntry.toEntry_eq_ok_iff.mp hstored
    exact hfault
  · cases h

theorem render_shown (format : EntryFormat) (entries : List Entry) :
    render format (entries.map format.shown) = render format entries := by
  rw [render, render, List.map_map]
  simp only [Function.comp_def, StoredEntry.ofEntry_shown]

/-- Databases have the same text exactly if what is shown of their entries is the same. -/
theorem toUTF8_render_eq_iff (format : EntryFormat) {a b : List Entry}
    (ha : ∀ entry ∈ a, entry.fault? = none) (hb : ∀ entry ∈ b, entry.fault? = none) :
    (render format a).toUTF8 = (render format b).toUTF8
      ↔ a.map format.shown = b.map format.shown := by
  constructor
  · intro h
    have hread := read_render format ha
    rw [h, read_render format hb] at hread
    exact (Except.ok.inj hread).symm
  · intro h
    rw [← render_shown format a, h, render_shown format b]

/-! ### Filters -/

/-- The text that is saved of some entries: of those that a filter accepts. -/
def written (fs : FileSystem) (output : OutputOptions) (entries : List Entry) : String :=
  render output.format ((Conversion.accepted FileSystem.files output.filter entries).run fs).1

theorem written_of_accepts {fs : FileSystem} {output : OutputOptions} {entries : List Entry}
    (h : ∀ entry ∈ entries, output.filter.accepts (fs.isPresent entry.file) entry = true) :
    written fs output entries = render output.format entries := by
  rw [written, Conversion.accepted_run, List.filter_eq_self.mpr h]

/-- **A database is read as it was written**, and what was read is written as before. -/
theorem read_inverts_written (fs : FileSystem) (output : OutputOptions) :
    (∀ entries : List Entry, (∀ entry ∈ entries, entry.fault? = none) →
      (∀ entry ∈ entries, output.filter.accepts (fs.isPresent entry.file) entry = true) →
        read (.ok (written fs output entries).toUTF8) = .ok (entries.map output.format.shown))
    ∧ ∀ (content : Except FileError ByteArray) (entries : List Entry),
      read content = .ok entries →
        (∀ entry ∈ entries, entry.fault? = none)
        ∧ ((∀ entry ∈ entries, output.filter.accepts (fs.isPresent entry.file) entry = true) →
          read (.ok (written fs output entries).toUTF8) = .ok (entries.map output.format.shown)
          ∧ written fs output (entries.map output.format.shown) = written fs output entries) := by
  have hread : ∀ entries : List Entry, (∀ entry ∈ entries, entry.fault? = none) →
      (∀ entry ∈ entries, output.filter.accepts (fs.isPresent entry.file) entry = true) →
        read (.ok (written fs output entries).toUTF8)
          = .ok (entries.map output.format.shown) := by
    intro entries hvalid haccepts
    rw [written_of_accepts haccepts]
    exact read_render output.format hvalid
  refine ⟨hread, fun content entries hentries => ⟨fault?_of_read hentries, fun haccepts => ?_⟩⟩
  refine ⟨hread entries (fault?_of_read hentries) haccepts, ?_⟩
  have hshown : ∀ entry ∈ entries.map output.format.shown,
      output.filter.accepts (fs.isPresent entry.file) entry = true := by
    intro entry hentry
    obtain ⟨original, horiginal, rfl⟩ := List.mem_map.mp hentry
    exact haccepts original horiginal
  rw [written_of_accepts haccepts, written_of_accepts hshown, render_shown]

/-- A call with quotes, a backslash, a line end and an empty argument. -/
def quotedCall : Entry where
  file := ⟨"/src/a \"b\".c"⟩
  directory := ⟨"/src"⟩
  output := some ⟨"/src/a\\b.o"⟩
  arguments := ["cc", "", "it's", "-DX=\"\n\"", "/src/a \"b\".c"]

/-- Shell words, without the output. -/
def bareCommands : OutputOptions where
  format := { commandAsList := false, dropOutput := true }

theorem read_written_quotedCall :
    read (.ok (written (.empty []) bareCommands [quotedCall]).toUTF8)
        = .ok [{ quotedCall with output := none }]
      ∧ written (.empty []) bareCommands [{ quotedCall with output := none }]
        = written (.empty []) bareCommands [quotedCall] := by
  have hvalid : ∀ entry ∈ [quotedCall], entry.fault? = none := by
    intro entry hentry
    rw [List.mem_singleton.mp hentry]
    rfl
  have hkept := (read_inverts_written (.empty []) {}).1 [quotedCall] hvalid fun _ _ => rfl
  exact ((read_inverts_written (.empty []) bareCommands).2 _ _ hkept).2 fun _ _ => rfl

end Database

end CompileCommands
