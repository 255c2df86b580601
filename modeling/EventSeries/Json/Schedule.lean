import EventSeries.Exception.Record
import EventSeries.HolidayWindow
import EventSeries.Json.Event
import EventSeries.Json.Reading
import EventSeries.Refresh

/-
  This file reads and writes what scheduling works with
  besides events: occurrences, exception records, windows,
  settings, the outcome of a refresh, and logs.

  Key definitions include:
    * `OccurrenceKey.read`
    * `Occurrence.read`
    * `Occurrence.toJson`
    * `ExceptionRecord.read`
    * `ExceptionRecord.toJson`
    * `HolidayWindow.read`
    * `HolidayWindow.toJson`
    * `Settings.read`
    * `Settings.ofText`
    * `Settings.toJson`
    * `RefreshOutcome.toJson`
    * `LogEntry.toJson`
-/

namespace EventSeries

------------------------------------------------------------
-- Occurrences
------------------------------------------------------------

namespace OccurrenceKey

/- The fields of a key. -/
def fieldNames : List String :=
  ["series", "occurrence_start"]

def read
    (j : Json) : Reading OccurrenceKey := do
  let r ← Record.read fieldNames j
  return {
    series := ← r.required "series" readId
    occurrenceStart :=
      ← r.required "occurrence_start" readInstant }

def toJson
    (k : OccurrenceKey) : Json :=
  .object [
    ("series", .ofId k.series),
    ("occurrence_start", .ofInstant k.occurrenceStart)]

end OccurrenceKey

namespace Occurrence

/- The fields of an occurrence. -/
def fieldNames : List String :=
  ["event", "start", "doors", "end", "curfew",
    "is_override", "source_exception"]

def read
    (j : Json) : Reading Occurrence := do
  let r ← Record.read fieldNames j
  return {
    event := ← r.required "event" readId
    start := ← r.required "start" readInstant
    doors := ← r.stated "doors" readInstant
    finish := ← r.stated "end" readInstant
    curfew := ← r.stated "curfew" readInstant
    isOverride := ← r.withDefault "is_override" false readBool
    sourceException :=
      ← r.nullable "source_exception" OccurrenceKey.read }

def toJson
    (o : Occurrence) : Json :=
  .object [
    ("event", .ofId o.event),
    ("start", .ofInstant o.start),
    ("doors", .ofOption .ofInstant o.doors),
    ("end", .ofOption .ofInstant o.finish),
    ("curfew", .ofOption .ofInstant o.curfew),
    ("is_override", .bool o.isOverride),
    ("source_exception",
      .ofOption OccurrenceKey.toJson o.sourceException)]

end Occurrence

/- The times of a segment. -/
def Segment.toJson
    (s : Segment) : Json :=
  .object [
    ("starts_at", .ofInstant s.startsAt),
    ("doors_at", .ofOption .ofInstant s.doorsAt),
    ("ends_at", .ofOption .ofInstant s.endsAt),
    ("curfew_at", .ofOption .ofInstant s.curfewAt)]

------------------------------------------------------------
-- Exception Records
------------------------------------------------------------

namespace ExceptionKind

/- Name of a kind. -/
def name : ExceptionKind → String
  | skip => "skip"
  | replace => "override"
  | holiday => "holiday"

/- The names of all kinds. -/
def names : List (String × ExceptionKind) :=
  [skip, replace, holiday].map fun k => (k.name, k)

def read : Json → Reading ExceptionKind :=
  readName names

def toJson
    (k : ExceptionKind) : Json :=
  .text k.name

end ExceptionKind

namespace ExceptionRecord

/- The fields of a record. -/
def fieldNames : List String :=
  ["series", "occurrence_start", "kind", "override_event",
    "note"]

def read
    (j : Json) : Reading ExceptionRecord := do
  let r ← Record.read fieldNames j
  return {
    series := ← r.required "series" readId
    occurrenceStart :=
      ← r.required "occurrence_start" readInstant
    kind := ← r.withDefault "kind" .skip ExceptionKind.read
    overrideEvent := ← r.nullable "override_event" Event.read
    note := ← r.withDefault "note" "" readText }

def toJson
    (r : ExceptionRecord) : Json :=
  .object [
    ("series", .ofId r.series),
    ("occurrence_start", .ofInstant r.occurrenceStart),
    ("kind", r.kind.toJson),
    ("override_event",
      .ofOption Event.toJson r.overrideEvent),
    ("note", .text r.note)]

end ExceptionRecord

------------------------------------------------------------
-- Windows
------------------------------------------------------------

namespace HolidayWindow

/- The fields of a window. -/
def fieldNames : List String :=
  ["id", "name", "starts_at", "ends_at",
    "applies_to_public", "applies_to_internal", "note"]

def read
    (j : Json) : Reading HolidayWindow := do
  let r ← Record.read fieldNames j
  return {
    id := ← r.orElse "id" freshId readId
    name := ← r.required "name" readText
    startsAt := ← r.required "starts_at" readInstant
    endsAt := ← r.required "ends_at" readInstant
    appliesToEveryone :=
      ← r.withDefault "applies_to_public" true readBool
    appliesToStaff :=
      ← r.withDefault "applies_to_internal" true readBool
    note := ← r.withDefault "note" "" readText }

def toJson
    (w : HolidayWindow) : Json :=
  .object [
    ("id", .ofId w.id),
    ("name", .text w.name),
    ("starts_at", .ofInstant w.startsAt),
    ("ends_at", .ofInstant w.endsAt),
    ("applies_to_public", .bool w.appliesToEveryone),
    ("applies_to_internal", .bool w.appliesToStaff),
    ("note", .text w.note)]

end HolidayWindow

------------------------------------------------------------
-- Settings
------------------------------------------------------------

namespace Settings

/- The fields of settings. -/
def fieldNames : List String :=
  ["timezone", "max_occurrences", "horizon_months",
    "attempts_per_occurrence"]

def read
    (j : Json) : Reading Settings := do
  let r ← Record.read fieldNames j
  let base : Settings := {}
  return {
    timezone :=
      ← r.withDefault "timezone" base.timezone readText
    maxOccurrences :=
      ← r.withDefault "max_occurrences" base.maxOccurrences
        (readNat 64)
    horizonMonths :=
      ← r.withDefault "horizon_months" base.horizonMonths
        (readNat 32)
    attemptsPerOccurrence :=
      ← r.withDefault "attempts_per_occurrence"
        base.attemptsPerOccurrence (readNat 64) }

def toJson
    (s : Settings) : Json :=
  .object [
    ("timezone", .text s.timezone),
    ("max_occurrences", .ofNat s.maxOccurrences),
    ("horizon_months", .ofNat s.horizonMonths),
    ("attempts_per_occurrence",
      .ofNat s.attemptsPerOccurrence)]

/- The settings that a text writes, valid or not. -/
def ofTextUnchecked?
    (text : String) : Option Settings := do
  let noIds : IdSource := { supply := Id.versionFour }
  let (settings, _) ← (read (← Json.ofText? text)).run noIds
  return settings

/- The valid settings that a text writes. -/
def ofText
    (text : String) : Except ScheduleError Settings :=
  match ofTextUnchecked? text with
  | none => .error (.invalidConfig .malformed)
  | some settings => do
      let _ ← settings.validate
      return settings

end Settings

------------------------------------------------------------
-- Outcomes And Logs
------------------------------------------------------------

def RefreshOutcome.toJson
    (o : RefreshOutcome) : Json :=
  .object [
    ("next_start", .ofOption .ofInstant o.nextStart),
    ("changed", .bool o.changed),
    ("occurrences", .ofList Occurrence.toJson o.occurrences)]

def LogEntry.toJson
    (e : LogEntry) : Json :=
  .object [
    ("level", .text e.level.name),
    ("message", .text e.message),
    ("fields", .object (e.fields.map fun (name, value) =>
      (name, .text value)))]

end EventSeries
