/-
How entries are written, and which.
-/
import CompileCommands.Entry

namespace CompileCommands

/-- The shape of a written entry. -/
structure EntryFormat where
  /-- Write the command line as a list of arguments rather than as one text. -/
  commandAsList : Bool := true
  /-- Leave the output out. -/
  dropOutput : Bool := false
  deriving DecidableEq, Repr, Inhabited

/-- Which entries are written. -/
structure SourceFilter where
  /-- Write only entries whose source exists and passes the lists below; without this every
  entry is written. -/
  onlyExisting : Bool := false
  /-- The source must lie under one of these, unless there are none. -/
  inside : List Path := []
  /-- The source must not lie under any of these. -/
  outside : List Path := []
  deriving DecidableEq, Repr, Inhabited

/-- Is an entry written?  `isPresent` tells whether its source exists. -/
def SourceFilter.accepts (filter : SourceFilter) (isPresent : Bool) (entry : Entry) : Bool :=
  !filter.onlyExisting
    || (isPresent
      && (filter.inside.isEmpty || filter.inside.any entry.file.isUnder)
      && !filter.outside.any entry.file.isUnder)

end CompileCommands
