/-
The log.

The program tells what it does in events of five levels.  An event is a message with
some counts, and is written as one line: as plain text, where characters that could
command a terminal are made visible, or as a JSON record.
-/
import CompileCommands.Json.Value

namespace CompileCommands

/-! ### Levels -/

/-- How important an event is; the least important level comes first. -/
inductive LogLevel
  | trace
  | debug
  | info
  | warn
  | error
  deriving DecidableEq, Repr, Inhabited

namespace LogLevel

/-- All levels, the least important one first. -/
def all : List LogLevel := [trace, debug, info, warn, error]

/-- The name that a user gives. -/
def name : LogLevel → String
  | trace => "trace"
  | debug => "debug"
  | info => "info"
  | warn => "warn"
  | error => "error"

/-- The name that stands in a log line. -/
def title : LogLevel → String
  | trace => "TRACE"
  | debug => "DEBUG"
  | info => "INFO"
  | warn => "WARN"
  | error => "ERROR"

def rank : LogLevel → Nat
  | trace => 0
  | debug => 1
  | info => 2
  | warn => 3
  | error => 4

/-- Is an event of level `level` told where `least` is the least important level of interest? -/
def isShownAt (level least : LogLevel) : Bool := least.rank ≤ level.rank

/-- The level of a name.  Letter case makes no difference; the names hold ASCII letters only, and
no other character becomes one of them in lower case. -/
def ofName? (text : String) : Option LogLevel :=
  all.find? (·.name.toList = text.toList.map Char.toLower)

/-- The level that is used when a name means none. -/
def fallback : LogLevel := info

/-- What is told about a name that means no level. -/
def complaint (text : String) : String :=
  "Invalid log level '" ++ text ++ "', defaulting to " ++ fallback.title ++ ". Valid levels: "
    ++ ", ".intercalate (all.map name)

/-- The level of a name, and the complaint about it, if there is one. -/
def parse (text : String) : LogLevel × Option String :=
  match ofName? text with
  | some level => (level, none)
  | none => (fallback, some (complaint text))

end LogLevel

/-! ### Settings -/

/-- What is logged, and how. -/
structure LogOptions where
  level : LogLevel := .info
  useJson : Bool := false
  /-- Name the part of the program that an event comes from. -/
  includeTarget : Bool := false
  /-- Name the file and line that an event comes from. -/
  includeLocation : Bool := false
  deriving DecidableEq, Repr, Inhabited

namespace LogOptions

/-- The options that the environment gives, with the complaints about it.  Events are JSON
records only when that is asked for by the word `true`. -/
def ofEnvironment (level json : Option String) : LogOptions × List String :=
  let (chosen, complaint) := match level with
    | some text => LogLevel.parse text
    | none => (.fallback, none)
  ({ level := chosen, useJson := json = some "true" }, complaint.toList)

def withLevel (level : LogLevel) : LogOptions := { level }

end LogOptions

/-! ### Events -/

structure LogEvent where
  level : LogLevel
  message : String
  counts : List (String × Nat) := []
  deriving DecidableEq, Repr

namespace LogEvent

def debug (message : String) (counts : List (String × Nat) := []) : LogEvent :=
  ⟨.debug, message, counts⟩

def info (message : String) (counts : List (String × Nat) := []) : LogEvent :=
  ⟨.info, message, counts⟩

/-- The message, followed by the counts. -/
def text (event : LogEvent) : String :=
  event.message ++ String.join (event.counts.map fun (name, n) => " " ++ name ++ "=" ++ toString n)

/-- How a character of a message is shown in a line of text.  Escape, bell, backspace, form feed
and delete are given by two hexadecimal digits, and the control characters beyond ASCII
by their code points. -/
def showChar (c : Char) : List Char :=
  if c ∈ ['\x1b', '\x07', '\x08', '\x0c', '\x7f'] then
    ['\\', 'x', Json.Value.hexDigit (c.toNat / 16), Json.Value.hexDigit (c.toNat % 16)]
  else if 0x80 ≤ c.toNat ∧ c.toNat ≤ 0x9f then
    ['\\', 'u', '\x7b'] ++ Nat.toDigits 16 c.toNat ++ ['\x7d']
  else [c]

/-- An event as a line of text. -/
def line (event : LogEvent) : String :=
  event.level.title ++ " " ++ String.ofList (event.text.toList.flatMap showChar)

/-- An event as a JSON record. -/
def toJson (event : LogEvent) : Json.Value :=
  .record [
    ("level", .text event.level.title),
    ("fields", .record (("message", .text event.message)
      :: event.counts.map fun (name, n) => (name, .number (Int.ofNat n))))]

end LogEvent

end CompileCommands
