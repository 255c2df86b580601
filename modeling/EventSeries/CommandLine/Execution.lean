import EventSeries.CommandLine.Arguments
import EventSeries.Json.Schedule
import EventSeries.Override

/-
  This file carries out the commands of the command line.  A
  command reads a document with an event, its records and
  windows, and the slugs that are taken, and prints a JSON
  value.  Its files are read beforehand, so that a command is
  a function of their texts.

  Key definitions include:
    * `Environment`
    * `Failure`
    * `Failure.message`
    * `Document`
    * `Document.ofText?`
    * `Invocation.execute`
-/

namespace EventSeries.CommandLine

------------------------------------------------------------
-- Surroundings
------------------------------------------------------------

/-
  What a command finds: the texts of files, the text that is
  typed, the time of the clock, and fresh identifiers.
-/
structure Environment where
  file? : String → Option String
  typed : String
  clock : Instant
  ids : IdSource

/- Options whose value is a time. -/
inductive TimeOption where
  | now
  | horizon
  | occurrence
  deriving DecidableEq, Repr

/- Why a command has failed. -/
inductive Failure where
  | configUnreadable (path : String)
  | configInvalid (path : String)
  | zoneInvalid
  | timeInvalid (name : TimeOption)
  | settingsInvalid
  | inputUnreadable (path : String)
  | inputInvalid
  | refreshFailed
  | outOfRange (range : OutOfRange)
  deriving DecidableEq, Repr

/- An option as it is typed. -/
def TimeOption.text : TimeOption → String
  | now => "--now"
  | horizon => "--horizon"
  | occurrence => "--occurrence"

/- The text of a failure. -/
def Failure.message : Failure → String
  | configUnreadable path =>
      "Failed to read config file: " ++ path
  | configInvalid path => "Invalid config file: " ++ path
  | zoneInvalid => "Invalid organization time zone"
  | timeInvalid name => "Invalid " ++ name.text ++ " value"
  | settingsInvalid => "Invalid scheduler settings"
  | inputUnreadable path => "Failed to read file: " ++ path
  | inputInvalid => "Failed to parse input JSON"
  | refreshFailed => "Failed to refresh schedule"
  | outOfRange _ => "Out of the calendar's range"

/- The result of a command or of a part of it. -/
abbrev Attempt :=
  Except Failure

namespace Attempt

/- A result that was found, or else a failure. -/
def ofOption
    {α : Type}
    (failure : Failure) :
    Option α → Attempt α
  | some a => .ok a
  | none => .error failure

/- A result of scheduling, with a failure for its errors. -/
def ofSchedule
    {α : Type}
    (failure : Failure) :
    Except ScheduleError α → Attempt α
  | .ok a => .ok a
  | .error (.outOfRange range) => .error (.outOfRange range)
  | .error _ => .error failure

/- A result of arithmetic. -/
def ofBounded
    {α : Type} :
    Bounded α → Attempt α
  | .ok a => .ok a
  | .error range => .error (.outOfRange range)

end Attempt

------------------------------------------------------------
-- Documents
------------------------------------------------------------

/- What a command works on. -/
structure Document where
  event : Event
  exceptions : List ExceptionRecord
  holidays : List HolidayWindow
  existingSlugs : SlugSet

namespace Document

/- The fields of a document. -/
def fieldNames : List String :=
  ["event", "exceptions", "holidays", "existing_slugs"]

def read
    (j : Json) : Reading Document := do
  let r ← Record.read fieldNames j
  return {
    event := ← r.required "event" Event.read
    exceptions :=
      ← r.withDefault "exceptions" []
        (readList ExceptionRecord.read)
    holidays :=
      ← r.withDefault "holidays" []
        (readList HolidayWindow.read)
    existingSlugs :=
      ← r.withDefault "existing_slugs" []
        (readList readText) }

/- The document that a text writes, and the ids left. -/
def ofText?
    (text : String)
    (ids : IdSource) : Option (Document × IdSource) := do
  (read (← Json.ofText? text)).run ids

end Document

------------------------------------------------------------
-- Preparations
------------------------------------------------------------

namespace Invocation

/- The settings of the file, or the default ones. -/
def fileSettings
    (i : Invocation)
    (env : Environment) : Attempt Settings :=
  match i.config with
  | none => .ok {}
  | some path => do
      let text ← Attempt.ofOption (.configUnreadable path)
        (env.file? path)
      Attempt.ofSchedule (.configInvalid path)
        (Settings.ofText text)

/- The settings, with the zone of the option in them. -/
def settings
    (i : Invocation)
    (env : Environment) : Attempt Settings := do
  let settings ← i.fileSettings env
  return { settings with
    timezone := i.timezone.getD settings.timezone }

/- The time that an option gives. -/
def timeOf
    (z : Zone)
    (name : TimeOption)
    (raw : String) : Attempt Instant :=
  .ofSchedule (.timeInvalid name) (ManualDate.parse z raw)

/- The time that an option gives, if it is there. -/
def timeOf?
    (z : Zone)
    (name : TimeOption) :
    Option String → Attempt (Option Instant)
  | some raw => some <$> timeOf z name raw
  | none => .ok none

/- The scheduler that a command works with. -/
def scheduler
    (i : Invocation)
    (env : Environment) : Attempt Scheduler := do
  let settings ← i.settings env
  let zone ← Attempt.ofSchedule .zoneInvalid settings.zone
  let now ← timeOf? zone .now i.now
  Attempt.ofSchedule .settingsInvalid
    (Scheduler.ofSettings settings (now.getD env.clock))

/- The text of the document. -/
def inputText
    (i : Invocation)
    (env : Environment) : Attempt String :=
  match i.input with
  | none => .ok env.typed
  | some path =>
      .ofOption (.inputUnreadable path) (env.file? path)

/- The document, and the identifiers left. -/
def document
    (i : Invocation)
    (env : Environment) :
    Attempt (Document × IdSource) := do
  let text ← i.inputText env
  Attempt.ofOption .inputInvalid
    (Document.ofText? text env.ids)

------------------------------------------------------------
-- Commands
------------------------------------------------------------

/- The series of the event of a document. -/
def printSeries
    (s : Scheduler)
    (d : Document)
    (o : SeriesOptions) : Attempt Json := do
  let series ← Attempt.ofBounded
    (s.series d.event d.exceptions d.holidays o)
  return .ofList Occurrence.toJson series

/- The outcome of a refresh of the event of a document. -/
def printRefresh
    (s : Scheduler)
    (d : Document)
    (count : Nat)
    (horizon : Option Instant) : Attempt Json := do
  let store : MemoryStore := {}
  let done := s.refresh d.event d.exceptions d.holidays count
    horizon store
  let outcome ← Attempt.ofSchedule .refreshFailed done.outcome
  return outcome.toJson

/- The value that a command prints. -/
def execute
    (i : Invocation)
    (env : Environment) : Attempt Json := do
  let s ← i.scheduler env
  let (d, ids) ← i.document env
  match i.command with
  | .series count includePast horizon =>
      let horizon ← timeOf? s.zone .horizon horizon
      printSeries s d ⟨count, includePast, horizon⟩
  | .refresh count horizon =>
      let horizon ← timeOf? s.zone .horizon horizon
      printRefresh s d
        (count.getD s.settings.maxOccurrences) horizon
  | .clone occurrence =>
      let start ← timeOf s.zone .occurrence occurrence
      let clone ← Attempt.ofBounded (d.event.cloneFor
        ids.draw.1 start s.zone d.existingSlugs)
      return clone.toJson
  | .describe => return .text d.event.description

end Invocation

------------------------------------------------------------
-- Texts
------------------------------------------------------------

/- What is printed for the version. -/
def versionText : String :=
  "occurrences 0.1.0\n"

/- The lines that are printed for help. -/
def helpLines : List String := [
  "Preview occurrences of recurring venue events",
  "",
  "Usage: occurrences [OPTIONS] <COMMAND>",
  "",
  "Commands:",
  "  series    Print the occurrence series",
  "  refresh   Recompute the cached next start",
  "  clone     Materialize one occurrence",
  "  describe  Print the recurrence description",
  "",
  "Options:",
  "  --config <FILE>    Scheduler settings as JSON",
  "  --timezone <ZONE>  Organization time zone",
  "  --now <TIME>       Pin the present",
  "  -h, --help         Print help",
  "  -V, --version      Print version"]

/- What is printed for help. -/
def helpText : String :=
  String.join (helpLines.map (· ++ "\n"))

end EventSeries.CommandLine
