import EventSeries.Event.Basic
import EventSeries.Json.Record

/-
  This file reads and writes rules, performers and events.

  Key definitions include:
    * `Frequency.read`
    * `Frequency.toJson`
    * `Rule.read`
    * `Rule.toJson`
    * `Performer.read`
    * `Performer.toJson`
    * `Event.read`
    * `Event.toJson`
-/

namespace EventSeries

------------------------------------------------------------
-- Rules
------------------------------------------------------------

namespace Frequency

/- Name of a frequency. -/
def name : Frequency → String
  | .none => "none"
  | .weekly => "weekly"
  | .biweekly => "biweekly"
  | .monthlyByDate => "monthly_by_date"
  | .monthlyByWeekday => "monthly_by_weekday"

/- The names of all frequencies. -/
def names : List (String × Frequency) :=
  [.none, .weekly, .biweekly, .monthlyByDate,
    .monthlyByWeekday].map fun f => (f.name, f)

def read : Json → Reading Frequency :=
  readName names

def toJson
    (f : Frequency) : Json :=
  .text f.name

end Frequency

namespace Rule

/- The fields of a rule. -/
def fieldNames : List String :=
  ["frequency", "weekday", "week_of_month", "day_of_month"]

def read
    (j : Json) : Reading Rule := do
  let r ← Record.read fieldNames j
  return {
    frequency :=
      ← r.withDefault "frequency" .none Frequency.read
    weekday := ← r.nullable "weekday" readByte
    weekOfMonth := ← r.nullable "week_of_month" readByte
    dayOfMonth := ← r.nullable "day_of_month" readByte }

def toJson
    (r : Rule) : Json :=
  .object [
    ("frequency", r.frequency.toJson),
    ("weekday", .ofOption .ofByte r.weekday),
    ("week_of_month", .ofOption .ofByte r.weekOfMonth),
    ("day_of_month", .ofOption .ofByte r.dayOfMonth)]

end Rule

------------------------------------------------------------
-- Performers
------------------------------------------------------------

namespace Performer

/- The fields of a performer. -/
def fieldNames : List String :=
  ["band_id", "display_name", "performer_type",
    "slot_starts_at", "slot_ends_at", "order", "notes"]

def read
    (j : Json) : Reading Performer := do
  let r ← Record.read fieldNames j
  return {
    bandId := ← r.nullable "band_id" readId
    displayName := ← r.withDefault "display_name" "" readText
    performerType :=
      ← r.withDefault "performer_type" "" readText
    slotStartsAt := ← r.nullable "slot_starts_at" readInstant
    slotEndsAt := ← r.nullable "slot_ends_at" readInstant
    order := UInt32.ofNat
      (← r.withDefault "order" 0 (readNat 32))
    notes := ← r.withDefault "notes" "" readText }

def toJson
    (p : Performer) : Json :=
  .object [
    ("band_id", .ofOption .ofId p.bandId),
    ("display_name", .text p.displayName),
    ("performer_type", .text p.performerType),
    ("slot_starts_at", .ofOption .ofInstant p.slotStartsAt),
    ("slot_ends_at", .ofOption .ofInstant p.slotEndsAt),
    ("order", .ofNat p.order.toNat),
    ("notes", .text p.notes)]

end Performer

------------------------------------------------------------
-- Audience And Status
------------------------------------------------------------

namespace Audience

/- Name of an audience. -/
def name : Audience → String
  | everyone => "public"
  | staff => "internal"

/- The names of both audiences. -/
def names : List (String × Audience) :=
  [everyone, staff].map fun a => (a.name, a)

def read : Json → Reading Audience :=
  readName names

def toJson
    (a : Audience) : Json :=
  .text a.name

end Audience

namespace Status

/- Name of a status. -/
def name : Status → String
  | draft => "draft"
  | scheduled => "scheduled"
  | published => "published"
  | archived => "archived"
  | cancelled => "cancelled"

/- The names of all statuses. -/
def names : List (String × Status) :=
  [draft, scheduled, published, archived, cancelled].map
    fun s => (s.name, s)

def read : Json → Reading Status :=
  readName names

def toJson
    (s : Status) : Json :=
  .text s.name

end Status

------------------------------------------------------------
-- Events
------------------------------------------------------------

namespace Event

/- The fields of an event. -/
def fieldNames : List String :=
  ["id", "title", "slug", "status", "event_type", "teaser",
    "description_public", "description_internal", "doors_at",
    "starts_at", "ends_at", "curfew_at", "recurrence",
    "next_start", "manual_occurrences", "parent_series",
    "parent_occurrence_start", "categories",
    "standard_shifts", "performers", "requires_shifts"]

def read
    (j : Json) : Reading Event := do
  let r ← Record.read fieldNames j
  return {
    id := ← r.orElse "id" freshId readId
    title := ← r.required "title" readText
    slug := ← r.withDefault "slug" "" readText
    status := ← r.withDefault "status" .draft Status.read
    audience :=
      ← r.withDefault "event_type" .everyone Audience.read
    teaser := ← r.withDefault "teaser" "" readText
    descriptionPublic :=
      ← r.withDefault "description_public" "" readText
    descriptionInternal :=
      ← r.withDefault "description_internal" "" readText
    doorsAt := ← r.nullable "doors_at" readInstant
    startsAt := ← r.nullable "starts_at" readInstant
    endsAt := ← r.nullable "ends_at" readInstant
    curfewAt := ← r.nullable "curfew_at" readInstant
    recurrence := ← r.withDefault "recurrence" .none Rule.read
    nextStart := ← r.nullable "next_start" readInstant
    manualOccurrences :=
      ← r.withDefault "manual_occurrences" []
        (readList readText)
    parentSeries := ← r.nullable "parent_series" readId
    parentOccurrenceStart :=
      ← r.nullable "parent_occurrence_start" readInstant
    categories :=
      ← r.withDefault "categories" [] (readList readId)
    standardShifts :=
      ← r.withDefault "standard_shifts" [] (readList readId)
    performers :=
      ← r.withDefault "performers" [] (readList Performer.read)
    requiresShifts :=
      ← r.withDefault "requires_shifts" false readBool }

def toJson
    (e : Event) : Json :=
  .object [
    ("id", .ofId e.id),
    ("title", .text e.title),
    ("slug", .text e.slug),
    ("status", e.status.toJson),
    ("event_type", e.audience.toJson),
    ("teaser", .text e.teaser),
    ("description_public", .text e.descriptionPublic),
    ("description_internal", .text e.descriptionInternal),
    ("doors_at", .ofOption .ofInstant e.doorsAt),
    ("starts_at", .ofOption .ofInstant e.startsAt),
    ("ends_at", .ofOption .ofInstant e.endsAt),
    ("curfew_at", .ofOption .ofInstant e.curfewAt),
    ("recurrence", e.recurrence.toJson),
    ("next_start", .ofOption .ofInstant e.nextStart),
    ("manual_occurrences",
      .ofList .text e.manualOccurrences),
    ("parent_series", .ofOption .ofId e.parentSeries),
    ("parent_occurrence_start",
      .ofOption .ofInstant e.parentOccurrenceStart),
    ("categories", .ofList .ofId e.categories),
    ("standard_shifts", .ofList .ofId e.standardShifts),
    ("performers", .ofList Performer.toJson e.performers),
    ("requires_shifts", .bool e.requiresShifts)]

end Event

end EventSeries
