import EventSeries.Identifier
import EventSeries.Rule.Basic
import EventSeries.Text.Slug
import EventSeries.Time.Instant

/-
  This file defines events of a venue.  An event repeats by a
  rule, lists its dates by hand, or happens once.  An
  override stands in for one occurrence of a series and
  points back at it.

  Key definitions include:
    * `Audience`
    * `Status`
    * `Performer`
    * `Event`
    * `Event.titled`
    * `Event.isRecurring`
    * `Event.isOverride`
    * `Event.anchorStart?`
    * `Event.referenceStart?`
    * `Event.description`
-/

namespace EventSeries

------------------------------------------------------------
-- Parts Of An Event
------------------------------------------------------------

/- Whom an event is for. -/
inductive Audience where
  | everyone
  | staff
  deriving DecidableEq, Repr

/- How far the plans for an event have come. -/
inductive Status where
  | draft
  | scheduled
  | published
  | archived
  | cancelled
  deriving DecidableEq, Repr

/- A slot of a performer on an event. -/
structure Performer where
  bandId : Option Id
  displayName : String
  performerType : String
  slotStartsAt : Option Instant
  slotEndsAt : Option Instant
  order : UInt32
  notes : String
  deriving DecidableEq, Repr

------------------------------------------------------------
-- Events
------------------------------------------------------------

/-
  An event.  `nextStart` caches the start of the next
  occurrence of a series; `manualOccurrences` are dates as
  they were typed.
-/
structure Event where
  id : Id
  title : String
  slug : String := ""
  status : Status := .draft
  audience : Audience := .everyone
  teaser : String := ""
  descriptionPublic : String := ""
  descriptionInternal : String := ""
  doorsAt : Option Instant := none
  startsAt : Option Instant := none
  endsAt : Option Instant := none
  curfewAt : Option Instant := none
  recurrence : Rule := .none
  nextStart : Option Instant := none
  manualOccurrences : List String := []
  parentSeries : Option Id := none
  parentOccurrenceStart : Option Instant := none
  categories : List Id := []
  standardShifts : List Id := []
  performers : List Performer := []
  requiresShifts : Bool := false
  deriving DecidableEq, Repr

namespace Event

/- An event of which only the title is settled. -/
def titled
    (id : Id)
    (title : String) : Event where
  id := id
  title := title
  slug := slugify title

/- Whether the event repeats by its rule. -/
def isRecurring
    (e : Event) : Bool :=
  e.recurrence.isRecurring

/- Whether the event stands in for an occurrence. -/
def isOverride
    (e : Event) : Bool :=
  e.parentSeries.isSome

/- Whether the event lists dates by hand. -/
def hasManualOccurrences
    (e : Event) : Bool :=
  !e.manualOccurrences.isEmpty

/-
  The start from which a series is walked: the cached start
  of a recurring event, or else the start of the event.
-/
def anchorStart?
    (e : Event) : Option Instant :=
  if e.isRecurring then
    e.nextStart.or e.startsAt
  else
    e.startsAt

/- The start that doors, end and curfew are relative to. -/
def referenceStart?
    (e : Event) : Option Instant :=
  e.startsAt.or e.nextStart

/- Summary in words of when the event takes place. -/
def description
    (e : Event) : String :=
  if !e.isRecurring && e.hasManualOccurrences then
    "Multiple dates"
  else
    e.recurrence.description

end Event

end EventSeries
