import EventSeries.Exception.Index
import EventSeries.HolidayWindow
import EventSeries.Rule.Stepping

/-
  This file defines the walk over the dates of a recurring
  event.  From an anchor the walk steps along the pattern and
  visits each date: a record may skip or replace it, a window
  may hide it, and what is left becomes an occurrence.  The
  walk stops when enough occurrences are found, when a date
  lies past the horizon, when the pattern ends, or when it
  has used up its attempts.

  Key definitions include:
    * `SeriesOptions`
    * `WalkPlan`
    * `WalkPlan.visit`
    * `WalkPlan.next?`
    * `WalkState`
    * `Stop`
    * `WalkPlan.walkFrom`
    * `WalkPlan.walk`
-/

namespace EventSeries

------------------------------------------------------------
-- Options
------------------------------------------------------------

/-
  How many occurrences are wanted, whether past ones are
  kept, and the last instant at which one may start.
-/
structure SeriesOptions where
  maxOccurrences : Nat := 6
  includePast : Bool := false
  horizonEnd : Option Instant := none
  deriving DecidableEq, Repr

namespace SeriesOptions

/- A start no later than the horizon. -/
def withinHorizon
    (o : SeriesOptions)
    (start : Instant) : Bool :=
  o.horizonEnd.all (start ≤ ·)

/- A start that is not left out for lying in the past. -/
def admits
    (o : SeriesOptions)
    (now start : Instant) : Bool :=
  o.includePast || decide (now ≤ start)

/- A start that passes both tests. -/
def keeps
    (o : SeriesOptions)
    (now start : Instant) : Bool :=
  o.withinHorizon start && o.admits now start

end SeriesOptions

------------------------------------------------------------
-- Visiting A Date
------------------------------------------------------------

/- All that a walk depends on besides the date it is at. -/
structure WalkPlan where
  event : Event
  index : ExceptionIndex
  windows : List HolidayWindow
  zone : Zone
  timeOfDay : ClockTime
  now : Instant
  options : SeriesOptions
  maxAttempts : Nat

/- What a walk finds on a date. -/
inductive Visit where
  | pastHorizon
  | found (occurrence : Occurrence)
  | left
  | hidden (window : HolidayWindow)
  deriving DecidableEq, Repr

namespace WalkPlan

/- An override, unless it starts past the horizon. -/
def visitOverride
    (p : WalkPlan)
    (r : ExceptionRecord)
    (replacement : Event)
    (date : Instant) : Visit :=
  let start := replacement.startsAt.getD date
  if !p.options.withinHorizon start then
    .pastHorizon
  else if p.options.admits p.now start then
    .found (replacement.overrideOccurrence r.key start)
  else
    .left

/- A date without a record. -/
def visitPlain
    (p : WalkPlan)
    (date : Instant) : Bounded Visit :=
  match HolidayWindow.blocking? p.windows p.event.audience
      date with
  | some w => .ok (.hidden w)
  | none =>
      if p.options.admits p.now date then
        .found <$> p.event.occurrenceAt date
      else
        .ok .left

/- What the walk finds on a date of the pattern. -/
def visit
    (p : WalkPlan)
    (date : Instant) : Bounded Visit :=
  if !p.options.withinHorizon date then
    .ok .pastHorizon
  else
    match p.index.resolve date with
    | .override r replacement =>
        .ok (p.visitOverride r replacement date)
    | .suppressed _ => .ok .left
    | .unchanged => p.visitPlain date

/- The next date of the pattern, if it is a later one. -/
def next?
    (p : WalkPlan)
    (date : Instant) : Bounded (Option Instant) := do
  let next ← p.event.recurrence.nextAfter p.zone p.timeOfDay
    date
  return next.filter (date < ·)

end WalkPlan

------------------------------------------------------------
-- Walking
------------------------------------------------------------

/- Why a walk stopped. -/
inductive Stop where
  | filled
  | horizon
  | patternEnded
  | attemptsExhausted
  | outOfRange (range : OutOfRange)
  deriving DecidableEq, Repr

/- What a walk has seen and gathered so far. -/
structure WalkState where
  examined : Nat := 0
  collected : Array Occurrence := #[]
  log : Array LogEntry := #[]
  deriving Repr

/- A finished walk. -/
structure WalkEnd where
  state : WalkState
  stop : Stop

namespace WalkState

/- The state after one more date. -/
def record
    (s : WalkState)
    (event : Id)
    (date : Instant) : Visit → WalkState
  | .found o =>
      { s with
        examined := s.examined + 1
        collected := s.collected.push o }
  | .hidden w =>
      { s with
        examined := s.examined + 1
        log := s.log.push
          (.suppressedByWindow event date w.name) }
  | .left | .pastHorizon =>
      { s with examined := s.examined + 1 }

end WalkState

namespace WalkPlan

/- Enough occurrences have been gathered. -/
def isFilled
    (p : WalkPlan)
    (s : WalkState) : Bool :=
  p.options.maxOccurrences ≤ s.collected.size

/-
  The walk from a date, with so many attempts left and a
  state gathered on earlier dates.
-/
def walkFrom
    (p : WalkPlan) :
    Nat → Instant → WalkState → WalkEnd
  | 0, _, s => ⟨s, .attemptsExhausted⟩
  | attempts + 1, date, s =>
      match p.visit date with
      | .error range => ⟨s, .outOfRange range⟩
      | .ok visit =>
          let s := s.record p.event.id date visit
          if visit = .pastHorizon then
            ⟨s, .horizon⟩
          else if p.isFilled s then
            ⟨s, .filled⟩
          else
            match p.next? date with
            | .error range => ⟨s, .outOfRange range⟩
            | .ok none => ⟨s, .patternEnded⟩
            | .ok (some next) => walkFrom p attempts next s

/- The walk from an anchor with all its attempts. -/
def walk
    (p : WalkPlan)
    (anchor : Instant) : WalkEnd :=
  p.walkFrom p.maxAttempts anchor {}

end WalkPlan

namespace WalkEnd

/- The occurrences of a walk that stayed in range, by start. -/
def occurrences
    (e : WalkEnd) : Bounded (List Occurrence) :=
  match e.stop with
  | .outOfRange range => .error range
  | _ => .ok (sortOccurrences e.state.collected.toList)

/- What a walk reports, and a warning if it was cut short. -/
def log
    (e : WalkEnd)
    (event : Id)
    (requested : Nat) : List LogEntry :=
  e.state.log.toList ++
    match e.stop with
    | .attemptsExhausted =>
        [.attemptsExhausted event e.state.examined
          e.state.collected.size requested]
    | _ => []

end WalkEnd

end EventSeries
