import EventSeries.Exception.Record
import EventSeries.Text.Timestamp
import EventSeries.Zone.Basic

/-
  This file turns one occurrence of an event into an event of
  its own, an override.  Its slug is that of the event with
  the local start behind it, and a number behind that while
  the slug is taken.

  Key definitions include:
    * `SlugSet`
    * `slugWithSuffix`
    * `slugCandidate`
    * `freeSlug`
    * `Event.occurrenceSlug`
    * `Event.cloneFor`
-/

namespace EventSeries

------------------------------------------------------------
-- Slugs
------------------------------------------------------------

/- The slugs that are taken. -/
abbrev SlugSet :=
  List String

/- A base cut so that a suffix fits behind it. -/
def slugWithSuffix
    (base suffix : List Char) : List Char :=
  base.take (slugLimit - suffix.length) ++ suffix

/- The base alone, and then the base with a number. -/
def slugCandidate
    (base : List Char) : Nat → List Char
  | 0 => slugWithSuffix base []
  | n + 1 => slugWithSuffix base ('-' :: digits (n + 1))

/- The largest number that is put behind a slug. -/
def largestSlugNumber : Nat :=
  UInt32.size - 2

/-
  The first candidate from number `n` on that is free, among
  so many candidates and one.
-/
def firstFreeSlug?
    (taken : SlugSet)
    (base : List Char) :
    Nat → Nat → Option String
  | more, n =>
      let slug := String.ofList (slugCandidate base n)
      if taken.contains slug then
        match more with
        | 0 => none
        | more + 1 => firstFreeSlug? taken base more (n + 1)
      else
        some slug

/- The first candidate that is free. -/
def freeSlug
    (taken : SlugSet)
    (base : List Char) : Bounded String :=
  match firstFreeSlug? taken base largestSlugNumber 0 with
  | some slug => .ok slug
  | none => .error .count

namespace Event

/- The slug of the event, or that of its title. -/
def slugOrTitleSlug
    (e : Event) : String :=
  if e.slug.isEmpty then slugify e.title else e.slug

/- The slug of an override, numbers aside. -/
def occurrenceSlugBase
    (e : Event)
    (here : LocalTime) : List Char :=
  e.slugOrTitleSlug.toList ++ '-' :: here.compactChars

/- A free slug for the override of an occurrence. -/
def occurrenceSlug
    (e : Event)
    (start : Instant)
    (z : Zone)
    (taken : SlugSet) : Bounded String := do
  let here ← z.toLocal start
  freeSlug taken (e.occurrenceSlugBase here)

------------------------------------------------------------
-- Overrides
------------------------------------------------------------

/-
  The offsets that an override takes over; an event without
  any start is measured from the occurrence.
-/
def cloneOffsets
    (e : Event)
    (start : Instant) : Offsets :=
  .between (some (e.referenceStart?.getD start)) e.doorsAt
    e.endsAt e.curfewAt

/-
  The override for an occurrence: a copy of the event that
  happens once, at that start, with doors, end and curfew at
  the same distance.
-/
def cloneFor
    (e : Event)
    (id : Id)
    (start : Instant)
    (z : Zone)
    (taken : SlugSet) : Bounded Event := do
  let offsets := e.cloneOffsets start
  let slug ← e.occurrenceSlug start z taken
  return { e with
    id := id
    slug := slug
    recurrence := .none
    nextStart := none
    manualOccurrences := []
    parentSeries := some e.id
    parentOccurrenceStart := some start
    startsAt := some start
    doorsAt := ← offsets.doorsAt start
    endsAt := ← offsets.endAt start
    curfewAt := ← offsets.curfewAt start }

end Event

end EventSeries
