import EventSeries.Json.Schedule
import EventSeries.Proofs.Event.Instants
import EventSeries.Proofs.Json.Fields

/-
  Events, exception records, windows and occurrences are read
  back from the JSON that is written for them, whatever fields
  they have.  All of their fields are written, so no default
  takes the place of a value and no fresh identifier is drawn.

  Main declarations:
    * `ReadBack`
    * `Performer.read_toJson`
    * `Event.read_toJson`
    * `Occurrence.read_toJson`
    * `ExceptionRecord.read_toJson`
    * `HolidayWindow.read_toJson`
    * `records_readBack`
-/

namespace EventSeries

------------------------------------------------------------
-- Rules
------------------------------------------------------------

theorem Frequency.read_toJson
    (f : Frequency) :
    read f.toJson = pure f :=
  readName_name (by decide) (fun f => by cases f <;> decide) f

theorem Rule.read_toJson
    (r : Rule) :
    read r.toJson = pure r := by
  rw [read, toJson, Record.read_object fieldNames rfl
    (by decide), pure_bind]
  simp only [Record.withDefault, Record.orElse,
    Record.nullable, Record.slot_ofFields_cons,
    String.reduceEq, ↓reduceIte, pure_bind,
    Frequency.read_toJson, readNullOr_ofByte]

@[simp] theorem Rule.plain_toJson
    (r : Rule) :
    r.toJson.Plain := by
  apply Json.Plain.object
  simp [Frequency.toJson]

------------------------------------------------------------
-- Performers
------------------------------------------------------------

theorem Performer.read_toJson
    {p : Performer}
    (hWritten : ∀ t ∈ p.instants, t.Written) :
    read p.toJson = pure p := by
  rw [instants, List.forall_mem_append] at hWritten
  rcases hWritten with ⟨hStarts, hEnds⟩
  rw [read, toJson, Record.read_object fieldNames rfl
    (by decide), pure_bind]
  simp only [Record.withDefault, Record.orElse,
    Record.nullable, Record.slot_ofFields_cons,
    String.reduceEq, ↓reduceIte, pure_bind, readText,
    readNullOr_ofId, readNullOr_ofInstant hStarts,
    readNullOr_ofInstant hEnds,
    readNat_ofNat p.order.toNat_lt, UInt32.ofNat_toNat]

@[simp] theorem Performer.plain_toJson
    (p : Performer) :
    p.toJson.Plain := by
  apply Json.Plain.object
  simp

------------------------------------------------------------
-- Events
------------------------------------------------------------

theorem Audience.read_toJson
    (a : Audience) :
    read a.toJson = pure a :=
  readName_name (by decide) (fun a => by cases a <;> decide) a

theorem Status.read_toJson
    (s : Status) :
    read s.toJson = pure s :=
  readName_name (by decide) (fun s => by cases s <;> decide) s

theorem Event.read_toJson
    {e : Event}
    (hWritten : ∀ t ∈ e.instants, t.Written) :
    read e.toJson = pure e := by
  simp only [instants, List.forall_mem_append] at hWritten
  rcases hWritten with
    ⟨⟨⟨⟨⟨⟨hDoors, hStarts⟩, hEnds⟩, hCurfew⟩, hNext⟩,
      hParent⟩, hPerformers⟩
  have hManual :
      readList readText (.ofList .text e.manualOccurrences) =
        pure e.manualOccurrences :=
    readList_ofList fun _ _ => rfl
  have hIds :
      ∀ ids : List Id,
        readList readId (.ofList .ofId ids) = pure ids :=
    fun _ => readList_ofList fun id _ => readId_ofId id
  have hSlots :
      readList Performer.read
          (.ofList Performer.toJson e.performers) =
        pure e.performers := by
    apply readList_ofList
    intro p hMember
    apply Performer.read_toJson
    intro t hTime
    exact hPerformers t
      (List.mem_flatMap.mpr ⟨p, hMember, hTime⟩)
  rw [read, toJson, Record.read_object fieldNames rfl
    (by decide), pure_bind]
  simp only [Record.required, Record.withDefault,
    Record.orElse, Record.nullable, Record.slot_ofFields_cons,
    String.reduceEq, ↓reduceIte, pure_bind, readText, readBool,
    readId_ofId, Status.read_toJson, Audience.read_toJson,
    Rule.read_toJson, readNullOr_ofId,
    readNullOr_ofInstant hDoors, readNullOr_ofInstant hStarts,
    readNullOr_ofInstant hEnds, readNullOr_ofInstant hCurfew,
    readNullOr_ofInstant hNext, readNullOr_ofInstant hParent,
    hManual, hIds, hSlots]

@[simp] theorem Event.plain_toJson
    (e : Event) :
    e.toJson.Plain := by
  apply Json.Plain.object
  simp [Status.toJson, Audience.toJson]

------------------------------------------------------------
-- Occurrences
------------------------------------------------------------

theorem OccurrenceKey.read_toJson
    {k : OccurrenceKey}
    (hWritten : k.occurrenceStart.Written) :
    read k.toJson = pure k := by
  rw [read, toJson, Record.read_object fieldNames rfl
    (by decide), pure_bind]
  simp only [Record.required, Record.slot_ofFields_cons,
    String.reduceEq, ↓reduceIte, pure_bind, readId_ofId,
    readInstant_ofInstant hWritten]

theorem Occurrence.read_toJson
    {o : Occurrence}
    (hWritten : ∀ t ∈ o.instants, t.Written) :
    read o.toJson = pure o := by
  simp only [instants, List.cons_append, List.forall_mem_cons,
    List.forall_mem_append] at hWritten
  rcases hWritten with
    ⟨hStart, ⟨⟨hDoors, hFinish⟩, hCurfew⟩, hSource⟩
  have hKey :
      readNullOr OccurrenceKey.read
          (.ofOption OccurrenceKey.toJson o.sourceException) =
        pure o.sourceException := by
    apply readNullOr_ofOption
    · simp [OccurrenceKey.toJson]
    · intro k hMember
      apply OccurrenceKey.read_toJson
      apply hSource
      rw [hMember]
      exact List.mem_singleton_self _
  rw [read, toJson, Record.read_object fieldNames rfl
    (by decide), pure_bind]
  simp only [Record.required, Record.withDefault,
    Record.orElse, Record.nullable, Record.stated,
    Record.slot_ofFields_cons, String.reduceEq, ↓reduceIte,
    pure_bind, readBool, readId_ofId,
    readInstant_ofInstant hStart, readNullOr_ofInstant hDoors,
    readNullOr_ofInstant hFinish, readNullOr_ofInstant hCurfew,
    hKey]

@[simp] theorem OccurrenceKey.plain_toJson
    (k : OccurrenceKey) :
    k.toJson.Plain := by
  apply Json.Plain.object
  simp

@[simp] theorem Occurrence.plain_toJson
    (o : Occurrence) :
    o.toJson.Plain := by
  apply Json.Plain.object
  simp

------------------------------------------------------------
-- Exception Records
------------------------------------------------------------

theorem ExceptionKind.read_toJson
    (k : ExceptionKind) :
    read k.toJson = pure k :=
  readName_name (by decide) (fun k => by cases k <;> decide) k

theorem ExceptionRecord.read_toJson
    {r : ExceptionRecord}
    (hWritten : ∀ t ∈ r.instants, t.Written) :
    read r.toJson = pure r := by
  rw [instants, List.forall_mem_cons] at hWritten
  rcases hWritten with ⟨hStart, hOverride⟩
  have hEvent :
      readNullOr Event.read
          (.ofOption Event.toJson r.overrideEvent) =
        pure r.overrideEvent := by
    apply readNullOr_ofOption
    · simp [Event.toJson]
    · intro e hMember
      apply Event.read_toJson
      rw [hMember] at hOverride
      exact hOverride
  rw [read, toJson, Record.read_object fieldNames rfl
    (by decide), pure_bind]
  simp only [Record.required, Record.withDefault,
    Record.orElse, Record.nullable, Record.slot_ofFields_cons,
    String.reduceEq, ↓reduceIte, pure_bind, readText,
    readId_ofId, readInstant_ofInstant hStart,
    ExceptionKind.read_toJson, hEvent]

@[simp] theorem ExceptionRecord.plain_toJson
    (r : ExceptionRecord) :
    r.toJson.Plain := by
  apply Json.Plain.object
  simp [ExceptionKind.toJson]

------------------------------------------------------------
-- Windows
------------------------------------------------------------

theorem HolidayWindow.read_toJson
    {w : HolidayWindow}
    (hWritten : ∀ t ∈ w.instants, t.Written) :
    read w.toJson = pure w := by
  simp only [instants, List.forall_mem_cons] at hWritten
  rcases hWritten with ⟨hStarts, hEnds, _⟩
  rw [read, toJson, Record.read_object fieldNames rfl
    (by decide), pure_bind]
  simp only [Record.required, Record.withDefault,
    Record.orElse, Record.slot_ofFields_cons, String.reduceEq,
    ↓reduceIte, pure_bind, readText, readBool, readId_ofId,
    readInstant_ofInstant hStarts, readInstant_ofInstant hEnds]

@[simp] theorem HolidayWindow.plain_toJson
    (w : HolidayWindow) :
    w.toJson.Plain := by
  apply Json.Plain.object
  simp

------------------------------------------------------------
-- Texts
------------------------------------------------------------

section

variable {α : Type}

/- The value that a text writes. -/
def readFromText
    (read : Json → Reading α)
    (text : String) : Reading α := do
  read (← Reading.require (Json.ofText? text))

/-
  The value is read back from the JSON that is written for it,
  and from the text of this in either form.  No reading draws
  an identifier.
-/
structure ReadBack
    (read : Json → Reading α)
    (write : α → Json)
    (a : α) : Prop where
  value : read (write a) = pure a
  compact : readFromText read (write a).compact = pure a
  pretty : readFromText read (write a).pretty = pure a

/- A value is read from a text as it is from its JSON. -/
theorem readBack_of_read
    {read : Json → Reading α}
    {write : α → Json}
    {a : α}
    (hPlain : (write a).Plain)
    (hRead : read (write a) = pure a) :
    ReadBack read write a where
  value := hRead
  compact := by
    rw [readFromText, Json.ofText?_compact hPlain,
      Reading.require, pure_bind, hRead]
  pretty := by
    rw [readFromText, Json.ofText?_pretty hPlain,
      Reading.require, pure_bind, hRead]

end

/- Every record of instants that have texts is read back. -/
theorem records_readBack :
    (∀ e : Event, (∀ t ∈ e.instants, t.Written) →
      ReadBack Event.read Event.toJson e) ∧
    (∀ r : ExceptionRecord, (∀ t ∈ r.instants, t.Written) →
      ReadBack ExceptionRecord.read ExceptionRecord.toJson r) ∧
    (∀ w : HolidayWindow, (∀ t ∈ w.instants, t.Written) →
      ReadBack HolidayWindow.read HolidayWindow.toJson w) ∧
    (∀ o : Occurrence, (∀ t ∈ o.instants, t.Written) →
      ReadBack Occurrence.read Occurrence.toJson o) := by
  refine ⟨?_, ?_, ?_, ?_⟩
  · intro e hWritten
    exact readBack_of_read e.plain_toJson
      (Event.read_toJson hWritten)
  · intro r hWritten
    exact readBack_of_read r.plain_toJson
      (ExceptionRecord.read_toJson hWritten)
  · intro w hWritten
    exact readBack_of_read w.plain_toJson
      (HolidayWindow.read_toJson hWritten)
  · intro o hWritten
    exact readBack_of_read o.plain_toJson
      (Occurrence.read_toJson hWritten)

/-
  An event of the year 10000 whose doors open half a second
  past the hour, with an override of the year before 0.
-/
theorem records_readBack_distantNight :
    let start : Instant := ⟨253402372800, 0⟩
    let doors : Instant := ⟨253402369200, 500000000⟩
    let moved : Instant := ⟨-62198755200, 1001⟩
    let e : Event :=
      { id := ⟨1⟩
        title := "Jazz \"night\""
        status := .published
        audience := .staff
        doorsAt := some doors
        startsAt := some start
        recurrence := .weekly (some 3)
        manualOccurrences := ["2025-02-01T20:00"]
        categories := [⟨2⟩]
        performers :=
          [⟨some ⟨3⟩, "Trio", "band", some start, none, 1, ""⟩]
        requiresShifts := true }
    let r := ExceptionRecord.replacing e.id start
      { id := ⟨4⟩, title := "Moved", startsAt := some moved }
    let w : HolidayWindow :=
      { id := ⟨5⟩
        name := "Closed"
        startsAt := moved
        endsAt := start
        appliesToStaff := false }
    let o : Occurrence :=
      ⟨⟨4⟩, moved, some moved, none, none, true,
        some ⟨e.id, start⟩⟩
    (∀ t ∈ e.instants ++ r.instants ++ w.instants ++ o.instants,
      t.Written) ∧
    ReadBack Event.read Event.toJson e ∧
    ReadBack ExceptionRecord.read ExceptionRecord.toJson r ∧
    ReadBack HolidayWindow.read HolidayWindow.toJson w ∧
    ReadBack Occurrence.read Occurrence.toJson o := by
  intro start doors moved e r w o
  have hWritten :
      ∀ t ∈ e.instants ++ r.instants ++ w.instants
          ++ o.instants,
        t.Written := by
    decide
  have hParts := hWritten
  simp only [List.forall_mem_append] at hParts
  rcases hParts with ⟨⟨⟨hEvent, hRecord⟩, hWindow⟩, hShown⟩
  rcases records_readBack with
    ⟨hEvents, hRecords, hWindows, hOccurrences⟩
  exact ⟨hWritten, hEvents e hEvent, hRecords r hRecord,
    hWindows w hWindow, hOccurrences o hShown⟩

end EventSeries
