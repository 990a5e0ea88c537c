import CompileCommands.Compiler.Driver
import CompileCommands.Compiler.Family
import CompileCommands.Compiler.Tool
import CompileCommands.Config
import CompileCommands.Conversion
import CompileCommands.Database.Format
import CompileCommands.Database.Merge
import CompileCommands.Database.Text
import CompileCommands.Entry
import CompileCommands.FileError
import CompileCommands.FileSystem
import CompileCommands.Flag.Basic
import CompileCommands.Flag.Parse
import CompileCommands.Flag.Table
import CompileCommands.Forest.Basic
import CompileCommands.Forest.Walk
import CompileCommands.Invocation
import CompileCommands.Json.Decode
import CompileCommands.Json.Error
import CompileCommands.Json.Number
import CompileCommands.Json.Reading
import CompileCommands.Json.Text
import CompileCommands.Json.Value
import CompileCommands.Log
import CompileCommands.Main
import CompileCommands.Number.Binary64
import CompileCommands.Number.Shortest
import CompileCommands.Options
import CompileCommands.Options.Parse
import CompileCommands.Path
import CompileCommands.Program
import CompileCommands.Proofs.Compiler.EntryFlags
import CompileCommands.Proofs.Compiler.Families
import CompileCommands.Proofs.Compiler.Launcher
import CompileCommands.Proofs.Compiler.LinkerInputs
import CompileCommands.Proofs.Compiler.Names
import CompileCommands.Proofs.Compiler.Records
import CompileCommands.Proofs.Compiler.Removal
import CompileCommands.Proofs.Compiler.Rereading
import CompileCommands.Proofs.Compiler.Sources
import CompileCommands.Proofs.Config.Loading
import CompileCommands.Proofs.Config.Rendering
import CompileCommands.Proofs.Conversion.Append
import CompileCommands.Proofs.Conversion.Failure
import CompileCommands.Proofs.Conversion.Memory
import CompileCommands.Proofs.Conversion.ReadBack
import CompileCommands.Proofs.Database.Batches
import CompileCommands.Proofs.Database.Classes
import CompileCommands.Proofs.Database.Faults
import CompileCommands.Proofs.Database.Merge
import CompileCommands.Proofs.Database.Reading
import CompileCommands.Proofs.Database.RoundTrip
import CompileCommands.Proofs.Database.Validity
import CompileCommands.Proofs.FileSystem
import CompileCommands.Proofs.Flag.Concatenation
import CompileCommands.Proofs.Flag.Lookup
import CompileCommands.Proofs.Flag.Parse
import CompileCommands.Proofs.Flag.Places
import CompileCommands.Proofs.Forest.Ancestry
import CompileCommands.Proofs.Forest.Growth
import CompileCommands.Proofs.Forest.Levels
import CompileCommands.Proofs.Forest.Listing
import CompileCommands.Proofs.Forest.Partition
import CompileCommands.Proofs.Forest.Repetition
import CompileCommands.Proofs.Forest.Survey
import CompileCommands.Proofs.Forest.Walk
import CompileCommands.Proofs.Json.Decode
import CompileCommands.Proofs.Json.Number
import CompileCommands.Proofs.Json.Reading
import CompileCommands.Proofs.Json.Rendering
import CompileCommands.Proofs.Json.Spelling
import CompileCommands.Proofs.Json.Text
import CompileCommands.Proofs.Json.Writing
import CompileCommands.Proofs.Path
import CompileCommands.Proofs.Path.Decisions
import CompileCommands.Proofs.Path.Spelling
import CompileCommands.Proofs.Recognizer.Exclusion
import CompileCommands.Proofs.Recognizer.Launcher
import CompileCommands.Proofs.Recognizer.Order
import CompileCommands.Proofs.Recognizer.Pruning
import CompileCommands.Proofs.Recognizer.Repetition
import CompileCommands.Proofs.Result
import CompileCommands.Proofs.Shell.Continuation
import CompileCommands.Proofs.Shell.Quoting
import CompileCommands.Proofs.Shell.Reader
import CompileCommands.Proofs.Shell.RoundTrip
import CompileCommands.Proofs.Shell.Scan
import CompileCommands.Proofs.Text.Pieces
import CompileCommands.Proofs.Text.Utf8
import CompileCommands.Proofs.Trace.RoundTrip
import CompileCommands.Recognizer
import CompileCommands.Shell
import CompileCommands.SourceFile
import CompileCommands.Text.Pieces
import CompileCommands.Text.Quoted
import CompileCommands.Text.Unprintable
import CompileCommands.Text.Utf8
import CompileCommands.Trace
import CompileCommands.Trace.Format
