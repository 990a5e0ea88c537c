/-
The ways to write a configuration.

A configuration may be written with all of its fields, or without those that have their default:
a flag, a list of paths, a section, or both sections.  Each decoder supplies its own defaults,
and they agree from the inside out: a section that is left out is the section whose fields are
all left out.  So every way to write a configuration is decoded to it.
-/
import CompileCommands.Config
import CompileCommands.Proofs.Json.Rendering

namespace CompileCommands

open Json (Decodes Exactly Independent ListOf RecordField RecordOf Shown)

/-! ### Ways to write a configuration -/

/-- A declared compiler always names its executable; lists of flags that are empty may be left
out. -/
def DeclaredCompiler.Renders (compiler : DeclaredCompiler) : Json.Value → Prop :=
  RecordOf [
    Shown "executable" (Exactly Path.toJson) none compiler.executable,
    Shown "flags_to_add" (Exactly Json.Value.texts) (some []) compiler.flagsToAdd,
    Shown "flags_to_remove" (Exactly Json.Value.texts) (some []) compiler.flagsToRemove]

/-- No compiler is declared and none excluded unless something else is written. -/
def Selection.Renders (selection : Selection) : Json.Value → Prop :=
  RecordOf [
    Shown "compilers_to_recognize" (ListOf DeclaredCompiler.Renders) (some [])
      selection.declared,
    Shown "compilers_to_exclude" (ListOf (Exactly Path.toJson)) (some []) selection.excluded]

/-- Commands are lists and outputs are kept unless something else is written. -/
def EntryFormat.Renders (format : EntryFormat) : Json.Value → Prop :=
  RecordOf [
    Shown "command_as_array" (Exactly Json.Value.bool) (some true) format.commandAsList,
    Shown "drop_output_field" (Exactly Json.Value.bool) (some false) format.dropOutput]

/-- All sources are kept unless something else is written. -/
def SourceFilter.Renders (filter : SourceFilter) : Json.Value → Prop :=
  RecordOf [
    Shown "include_only_existing_source" (Exactly Json.Value.bool) (some false)
      filter.onlyExisting,
    Shown "paths_to_include" (ListOf (Exactly Path.toJson)) (some []) filter.inside,
    Shown "paths_to_exclude" (ListOf (Exactly Path.toJson)) (some []) filter.outside]

def OutputOptions.Renders (options : OutputOptions) : Json.Value → Prop :=
  RecordOf [
    Shown "format" EntryFormat.Renders (some ⟨true, false⟩) options.format,
    Shown "content" SourceFilter.Renders (some ⟨false, [], []⟩) options.filter]

/-- The ways to write a configuration: with or without each field that has its default, at every
level, and with the fields of each record in any order. -/
def Config.Renders (config : Config) : Json.Value → Prop :=
  RecordOf [
    Shown "compilation" Selection.Renders (some ⟨[], []⟩) config.selection,
    Shown "output" OutputOptions.Renders (some ⟨⟨true, false⟩, ⟨false, [], []⟩⟩) config.output]

/-! ### Single values -/

theorem Json.decodes_bool : Decodes Decoder.bool (Exactly Value.bool) :=
  decodes_exactly fun _ => rfl

theorem Path.decodes : Decodes Path.decoder (Exactly Path.toJson) :=
  Json.decodes_exactly fun _ => rfl

theorem Path.decodes_list :
    Decodes (Json.Decoder.list Path.decoder) (ListOf (Exactly Path.toJson)) :=
  Json.decodes_list Path.decodes

/-! ### Records

In each of them the places of the draft are filled one after the other, and what is left empty is
filled with the default. -/

namespace DeclaredCompiler

theorem independent_fields : Independent fields where
  apart := by
    simp only [fields, List.pairwise_cons, List.forall_mem_cons]
    refine ⟨⟨?_, ?_, nofun⟩, ⟨?_, nofun⟩, nofun, .nil⟩ <;>
      exact RecordField.apart_of (fun _ _ => rfl) (fun _ _ => rfl) fun _ _ _ => rfl
  kept := by
    simp only [fields, List.forall_mem_cons]
    refine ⟨?_, ?_, ?_, nofun⟩ <;> exact RecordField.isKept_of fun _ _ => rfl

theorem decodes : Decodes decoder Renders := by
  intro compiler value h
  refine Json.record_of_recordOf independent_fields h fun pieces hpieces => ?_
  obtain _ | ⟨hexecutable, _ | ⟨hadd, _ | ⟨hremove, _ | _⟩⟩⟩ := hpieces
  obtain ⟨executable, hx, hread⟩ := hexecutable.exists_found fields Path.decodes rfl rfl
    (⟨·, none, none⟩) rfl fun _ => rfl
  obtain ⟨add, ha, hreadAdd⟩ := hadd.exists_found fields
    (Json.decodes_exactly Json.Decoder.list_text_reading) rfl rfl
    (⟨executable, ·, none⟩) rfl fun _ => rfl
  obtain ⟨remove, hr, hreadRemove⟩ := hremove.exists_found fields
    (Json.decodes_exactly Json.Decoder.list_text_reading) rfl rfl
    (⟨executable, add, ·⟩) rfl fun _ => rfl
  refine ⟨⟨executable, add, remove⟩,
    (hread _).trans <| (hreadAdd _).trans <| hreadRemove [], ?_⟩
  simp only [Option.or_some, Option.or_none, Option.some.injEq] at hx ha hr
  rw [hx, ha, hr]
  rfl

end DeclaredCompiler

namespace Selection

theorem independent_fields : Independent fields where
  apart := by
    simp only [fields, List.pairwise_cons, List.forall_mem_cons]
    refine ⟨⟨?_, nofun⟩, nofun, .nil⟩
    exact RecordField.apart_of (fun _ _ => rfl) (fun _ _ => rfl) fun _ _ _ => rfl
  kept := by
    simp only [fields, List.forall_mem_cons]
    refine ⟨?_, ?_, nofun⟩ <;> exact RecordField.isKept_of fun _ _ => rfl

theorem decodes : Decodes decoder Renders := by
  intro selection value h
  refine Json.record_of_recordOf independent_fields h fun pieces hpieces => ?_
  obtain _ | ⟨hdeclared, _ | ⟨hexcluded, _ | _⟩⟩ := hpieces
  obtain ⟨declared, hd, hread⟩ := hdeclared.exists_found fields
    (Json.decodes_list DeclaredCompiler.decodes) rfl rfl (⟨·, none⟩) rfl fun _ => rfl
  obtain ⟨excluded, he, hreadExcluded⟩ := hexcluded.exists_found fields Path.decodes_list rfl rfl
    (⟨declared, ·⟩) rfl fun _ => rfl
  refine ⟨⟨declared, excluded⟩, (hread _).trans (hreadExcluded []), ?_⟩
  simp only [Option.or_some, Option.some.injEq] at hd he
  rw [hd, he]
  rfl

end Selection

namespace EntryFormat

theorem independent_fields : Independent fields where
  apart := by
    simp only [fields, List.pairwise_cons, List.forall_mem_cons]
    refine ⟨⟨?_, nofun⟩, nofun, .nil⟩
    exact RecordField.apart_of (fun _ _ => rfl) (fun _ _ => rfl) fun _ _ _ => rfl
  kept := by
    simp only [fields, List.forall_mem_cons]
    refine ⟨?_, ?_, nofun⟩ <;> exact RecordField.isKept_of fun _ _ => rfl

theorem decodes : Decodes decoder Renders := by
  intro format value h
  refine Json.record_of_recordOf independent_fields h fun pieces hpieces => ?_
  obtain _ | ⟨hlist, _ | ⟨hdrop, _ | _⟩⟩ := hpieces
  obtain ⟨commandAsList, hc, hread⟩ := hlist.exists_found fields Json.decodes_bool rfl rfl
    (⟨·, none⟩) rfl fun _ => rfl
  obtain ⟨dropOutput, hd, hreadDrop⟩ := hdrop.exists_found fields Json.decodes_bool rfl rfl
    (⟨commandAsList, ·⟩) rfl fun _ => rfl
  refine ⟨⟨commandAsList, dropOutput⟩, (hread _).trans (hreadDrop []), ?_⟩
  simp only [Option.or_some, Option.some.injEq] at hc hd
  rw [hc, hd]
  rfl

end EntryFormat

namespace SourceFilter

theorem independent_fields : Independent fields where
  apart := by
    simp only [fields, List.pairwise_cons, List.forall_mem_cons]
    refine ⟨⟨?_, ?_, nofun⟩, ⟨?_, nofun⟩, nofun, .nil⟩ <;>
      exact RecordField.apart_of (fun _ _ => rfl) (fun _ _ => rfl) fun _ _ _ => rfl
  kept := by
    simp only [fields, List.forall_mem_cons]
    refine ⟨?_, ?_, ?_, nofun⟩ <;> exact RecordField.isKept_of fun _ _ => rfl

theorem decodes : Decodes decoder Renders := by
  intro filter value h
  refine Json.record_of_recordOf independent_fields h fun pieces hpieces => ?_
  obtain _ | ⟨honly, _ | ⟨hinside, _ | ⟨houtside, _ | _⟩⟩⟩ := hpieces
  obtain ⟨onlyExisting, hx, hread⟩ := honly.exists_found fields Json.decodes_bool rfl rfl
    (⟨·, none, none⟩) rfl fun _ => rfl
  obtain ⟨inside, hi, hreadInside⟩ := hinside.exists_found fields Path.decodes_list rfl rfl
    (⟨onlyExisting, ·, none⟩) rfl fun _ => rfl
  obtain ⟨outside, ho, hreadOutside⟩ := houtside.exists_found fields Path.decodes_list rfl rfl
    (⟨onlyExisting, inside, ·⟩) rfl fun _ => rfl
  refine ⟨⟨onlyExisting, inside, outside⟩,
    (hread _).trans <| (hreadInside _).trans <| hreadOutside [], ?_⟩
  simp only [Option.or_some, Option.some.injEq] at hx hi ho
  rw [hx, hi, ho]
  rfl

end SourceFilter

namespace OutputOptions

theorem independent_fields : Independent fields where
  apart := by
    simp only [fields, List.pairwise_cons, List.forall_mem_cons]
    refine ⟨⟨?_, nofun⟩, nofun, .nil⟩
    exact RecordField.apart_of (fun _ _ => rfl) (fun _ _ => rfl) fun _ _ _ => rfl
  kept := by
    simp only [fields, List.forall_mem_cons]
    refine ⟨?_, ?_, nofun⟩ <;> exact RecordField.isKept_of fun _ _ => rfl

theorem decodes : Decodes decoder Renders := by
  intro options value h
  refine Json.record_of_recordOf independent_fields h fun pieces hpieces => ?_
  obtain _ | ⟨hformat, _ | ⟨hfilter, _ | _⟩⟩ := hpieces
  obtain ⟨format, hf, hread⟩ := hformat.exists_found fields EntryFormat.decodes rfl rfl
    (⟨·, none⟩) rfl fun _ => rfl
  obtain ⟨filter, hc, hreadFilter⟩ := hfilter.exists_found fields SourceFilter.decodes rfl rfl
    (⟨format, ·⟩) rfl fun _ => rfl
  refine ⟨⟨format, filter⟩, (hread _).trans (hreadFilter []), ?_⟩
  simp only [Option.or_some, Option.some.injEq] at hf hc
  rw [hf, hc]
  rfl

end OutputOptions

namespace Config

theorem independent_fields : Independent fields where
  apart := by
    simp only [fields, List.pairwise_cons, List.forall_mem_cons]
    refine ⟨⟨?_, nofun⟩, nofun, .nil⟩
    exact RecordField.apart_of (fun _ _ => rfl) (fun _ _ => rfl) fun _ _ _ => rfl
  kept := by
    simp only [fields, List.forall_mem_cons]
    refine ⟨?_, ?_, nofun⟩ <;> exact RecordField.isKept_of fun _ _ => rfl

theorem decodes : Decodes decoder Renders := by
  intro config value h
  refine Json.record_of_recordOf independent_fields h fun pieces hpieces => ?_
  obtain _ | ⟨hselection, _ | ⟨houtput, _ | _⟩⟩ := hpieces
  obtain ⟨selection, hs, hread⟩ := hselection.exists_found fields Selection.decodes rfl rfl
    (⟨·, none⟩) rfl fun _ => rfl
  obtain ⟨output, ho, hreadOutput⟩ := houtput.exists_found fields OutputOptions.decodes rfl rfl
    (⟨selection, ·⟩) rfl fun _ => rfl
  refine ⟨⟨selection, output⟩, (hread _).trans (hreadOutput []), ?_⟩
  simp only [Option.or_some, Option.some.injEq] at hs ho
  rw [hs, ho]
  rfl

end Config

/-! ### Written texts -/

theorem Json.fitting_texts : Fitting (Exactly Value.texts) := fitting_exactly fits_texts

theorem Json.fitting_bool : Fitting (Exactly Value.bool) := fitting_exactly fun _ => trivial

theorem Path.fitting : Json.Fitting (Exactly Path.toJson) := Json.fitting_exactly fun _ => trivial

theorem Path.fitting_list : Json.Fitting (ListOf (Exactly Path.toJson)) :=
  Json.fitting_list Path.fitting

theorem DeclaredCompiler.fitting : Json.Fitting Renders := by
  refine fun compiler value h => h.fits ?_
  simp only [List.forall_mem_cons]
  exact ⟨Shown.fits Path.fitting, Shown.fits Json.fitting_texts, Shown.fits Json.fitting_texts,
    nofun⟩

theorem Selection.fitting : Json.Fitting Renders := by
  refine fun selection value h => h.fits ?_
  simp only [List.forall_mem_cons]
  exact ⟨Shown.fits (Json.fitting_list DeclaredCompiler.fitting), Shown.fits Path.fitting_list,
    nofun⟩

theorem EntryFormat.fitting : Json.Fitting Renders := by
  refine fun format value h => h.fits ?_
  simp only [List.forall_mem_cons]
  exact ⟨Shown.fits Json.fitting_bool, Shown.fits Json.fitting_bool, nofun⟩

theorem SourceFilter.fitting : Json.Fitting Renders := by
  refine fun filter value h => h.fits ?_
  simp only [List.forall_mem_cons]
  exact ⟨Shown.fits Json.fitting_bool, Shown.fits Path.fitting_list, Shown.fits Path.fitting_list,
    nofun⟩

theorem OutputOptions.fitting : Json.Fitting Renders := by
  refine fun options value h => h.fits ?_
  simp only [List.forall_mem_cons]
  exact ⟨Shown.fits EntryFormat.fitting, Shown.fits SourceFilter.fitting, nofun⟩

theorem Config.fitting : Json.Fitting Renders := by
  refine fun config value h => h.fits ?_
  simp only [List.forall_mem_cons]
  exact ⟨Shown.fits Selection.fitting, Shown.fits OutputOptions.fitting, nofun⟩

/-- What is written of a configuration, on one line or on many, is a text of it. -/
theorem Config.holds_of_renders {config : Config} {value : Json.Value} (h : config.Renders value) :
    Json.Holds value.compact value ∧ Json.Holds value.render value :=
  have hfits : value.Fits := fitting config value h
  ⟨Json.holds_compact hfits, Json.holds_render hfits⟩

/-! ### Configurations that are written in full -/

theorem Path.renders_list (paths : List Path) :
    ListOf (Exactly toJson) paths (.list (paths.map toJson)) :=
  Json.listOf_map fun _ _ => rfl

theorem DeclaredCompiler.renders_toJson (compiler : DeclaredCompiler) :
    compiler.Renders compiler.toJson :=
  Json.recordOf_of_forall₂ (.cons (.written rfl) (.cons (.written rfl) (.cons (.written rfl) .nil)))

theorem Selection.renders_toJson (selection : Selection) : selection.Renders selection.toJson :=
  Json.recordOf_of_forall₂ (.cons
    (.written (Json.listOf_map fun compiler _ => compiler.renders_toJson))
    (.cons (.written (Path.renders_list _)) .nil))

theorem OutputOptions.renders_toJson (options : OutputOptions) : options.Renders options.toJson :=
  have hformat : options.format.Renders options.format.toJson :=
    Json.recordOf_of_forall₂ (.cons (.written rfl) (.cons (.written rfl) .nil))
  have hfilter : options.filter.Renders options.filter.toJson :=
    Json.recordOf_of_forall₂ (.cons (.written rfl) (.cons (.written (Path.renders_list _))
      (.cons (.written (Path.renders_list _)) .nil)))
  Json.recordOf_of_forall₂ (.cons (.written hformat) (.cons (.written hfilter) .nil))

theorem Config.renders_toJson (config : Config) : config.Renders config.toJson :=
  Json.recordOf_of_forall₂ (.cons (.written config.selection.renders_toJson)
    (.cons (.written config.output.renders_toJson) .nil))

end CompileCommands
