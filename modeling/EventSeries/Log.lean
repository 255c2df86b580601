import EventSeries.Error
import EventSeries.Identifier
import EventSeries.Text.Timestamp

/-
  This file defines what scheduling reports while it works:
  entries of a log, each with a level, a message and named
  fields, and results that come with a log.

  Key definitions include:
    * `LogEntry`
    * `LogEntry.level`
    * `LogEntry.message`
    * `LogEntry.fields`
    * `Traced`
-/

namespace EventSeries

------------------------------------------------------------
-- Entries
------------------------------------------------------------

/- How much attention an entry asks for. -/
inductive LogLevel where
  | trace
  | debug
  | warn
  deriving DecidableEq, Repr

/- Name of a level. -/
def LogLevel.name : LogLevel → String
  | trace => "TRACE"
  | debug => "DEBUG"
  | warn => "WARN"

/- What happened. -/
inductive LogEntry where
  | manualDateDropped
      (event : Id)
      (error : ScheduleError)
  | duplicateException
      (series : Id)
      (occurrenceStart : Instant)
  | suppressedByWindow
      (event : Id)
      (start : Instant)
      (window : String)
  | attemptsExhausted
      (event : Id)
      (attempts collected requested : Nat)
  | nextStartUnchanged
      (event : Id)
  | nextStartUpdated
      (event : Id)
      (next : Instant)
  | nextStartCleared
      (event : Id)
  deriving DecidableEq, Repr

namespace LogEntry

/- The level of an entry. -/
def level : LogEntry → LogLevel
  | manualDateDropped .. => .warn
  | duplicateException .. => .warn
  | suppressedByWindow .. => .trace
  | attemptsExhausted .. => .warn
  | nextStartUnchanged .. => .trace
  | nextStartUpdated .. => .debug
  | nextStartCleared .. => .debug

/- The message of an entry. -/
def message : LogEntry → String
  | manualDateDropped .. => "Dropping manual occurrence"
  | duplicateException .. =>
      "Duplicate recurrence exception ignored"
  | suppressedByWindow .. =>
      "Occurrence suppressed by holiday window"
  | attemptsExhausted .. =>
      "Stepping-attempts cap reached; series truncated"
  | nextStartUnchanged .. => "next_start unchanged"
  | nextStartUpdated .. => "next_start updated"
  | nextStartCleared .. => "next_start cleared"

/- A count as the text of a field. -/
def countText
    (n : Nat) : String :=
  String.ofList (digits n)

/- The fields of an entry, as texts. -/
def fields : LogEntry → List (String × String)
  | manualDateDropped event error =>
      [("event_id", event.text), ("error", error.message)]
  | duplicateException series occurrenceStart =>
      [("series", series.text),
        ("occurrence_start", occurrenceStart.logText)]
  | suppressedByWindow event start window =>
      [("event_id", event.text), ("start", start.logText),
        ("holiday", window)]
  | attemptsExhausted event attempts collected requested =>
      [("event_id", event.text),
        ("attempts", countText attempts),
        ("collected", countText collected),
        ("requested", countText requested)]
  | nextStartUnchanged event => [("event_id", event.text)]
  | nextStartUpdated event next =>
      [("event_id", event.text),
        ("next_start", next.logText)]
  | nextStartCleared event => [("event_id", event.text)]

end LogEntry

------------------------------------------------------------
-- Results With A Log
------------------------------------------------------------

/- A result and what was reported on the way to it. -/
structure Traced (α : Type) where
  value : α
  log : List LogEntry

end EventSeries
