import EventSeries.Proofs.ManualDate.Forms
import EventSeries.Proofs.Text.WallTime

/-
  Dates that are listed by hand are read back as they were
  written.  A text is read in its own form, since no other
  form fits it; so a wall time is placed in the zone, and one
  with an offset is the same instant in every zone.

  Main declarations:
    * `ManualDate.parse_layoutChars`
    * `ManualDate.parse_strictChars`
    * `ManualDate.parse_written`
-/

namespace EventSeries.ManualDate

open Scan (WallLayout)

/- A trimmed text is read in the one form that it has. -/
theorem parse_of_reads
    {cs before after : List Char}
    {f : Form}
    {r : Reading}
    (hTrimmed : Trimmed cs)
    (hBefore : ∀ c ∈ before, isBlank c = true)
    (hAfter : ∀ c ∈ after, isBlank c = true)
    (hReads : f.reading? cs = some r)
    (z : Zone) :
    parse z (String.ofList (before ++ cs ++ after)) =
      Bounded.toSchedule (r.instantIn z) := by
  have hReading : reading? cs = some r := by
    rw [← readingBy?_all]
    exact readingBy?_of_reads f.mem_all hReads
  unfold parse
  rw [String.toList_ofList,
    trimChars_of_trimmed hTrimmed hBefore hAfter, hReading]

section

variable {l : LocalTime}
variable {before after : List Char}
variable {places : Nat}
variable (hYear : 0 ≤ l.date.year ∧ l.date.year ≤ 9999)
variable (hOrdinary : l.time.nanos < nanosPerSecond)
variable (hBefore : ∀ c ∈ before, isBlank c = true)
variable (hAfter : ∀ c ∈ after, isBlank c = true)
include hYear hOrdinary hBefore hAfter

/- A wall time in a layout is placed in the zone. -/
theorem parse_layoutChars
    {layout : WallLayout}
    (hExact : layout.IsExact places l.time)
    (z : Zone) :
    parse z
        (String.ofList
          (before ++ l.layoutChars layout places ++ after)) =
      Bounded.toSchedule (z.localize l) := by
  have hReads :
      (Form.wall layout).reading?
        (l.layoutChars layout places) = some (.wall l) :=
    congrArg (Option.map Reading.wall)
      (Scan.whole?_of_takes
        (Scan.wallTime_takes hYear hOrdinary hExact))
  exact parse_of_reads (trimmed_layoutChars hYear layout places)
    hBefore hAfter hReads z

/- One with an offset has its instant in every zone. -/
theorem parse_strictChars
    {separator : Char}
    (hSeparator : separator ∈ ['T', 't', ' '])
    (hExact : ExactIn places l.time.nanos)
    (offset : WrittenOffset)
    (z : Zone) :
    parse z
        (String.ofList
          (before ++ l.strictChars separator places offset
            ++ after)) =
      .ok
        ⟨l.inUtc.seconds - offset.seconds, l.time.nanos⟩ := by
  have hReads :=
    congrArg (Option.map Reading.instant)
      (Scan.whole?_of_takes
        (Scan.strictInstant_takes hYear hOrdinary hSeparator
          hExact offset))
  exact parse_of_reads (f := .strict)
    (trimmed_strictChars hYear separator places offset)
    hBefore hAfter hReads z

end

/- The text of an instant has the strict form. -/
theorem exists_strictChars_eq
    {t : Instant}
    (hOrdinary : t.nanos < nanosPerSecond) :
    ∃ places, ExactIn places t.nanos ∧
      t.utcReading.strictChars 'T' places .capitalZ =
        t.chars := by
  rcases ClockTime.exists_charsIn_eq (c := t.utcReading.time)
      hOrdinary with
    ⟨places, hExact, hChars⟩
  refine ⟨places, hExact, ?_⟩
  rw [LocalTime.strictChars, hChars, Instant.chars,
    LocalTime.chars, LocalTime.charsWith, List.append_assoc]
  rfl

/-
  Written wall times are read back, with blanks around them.
  In each layout they are placed in the zone, and in the
  strict form they are less their offset, whatever the zone.
  So the text of an instant is read as the instant.
-/
theorem parse_written
    (z : Zone)
    {l : LocalTime}
    {before after : List Char}
    (hYear : 0 ≤ l.date.year ∧ l.date.year ≤ 9999)
    (hOrdinary : l.time.nanos < nanosPerSecond)
    (hBefore : ∀ c ∈ before, isBlank c = true)
    (hAfter : ∀ c ∈ after, isBlank c = true) :
    let parseBetween (cs : List Char) :=
      parse z (String.ofList (before ++ cs ++ after))
    (∀ (layout : WallLayout) (places : Nat),
      layout.IsExact places l.time →
        parseBetween (l.layoutChars layout places) =
          Bounded.toSchedule (z.localize l)) ∧
      (∀ separator ∈ ['T', 't', ' '],
        ∀ (places : Nat) (offset : WrittenOffset),
          ExactIn places l.time.nanos →
            parseBetween
                (l.strictChars separator places offset) =
              .ok ⟨l.inUtc.seconds - offset.seconds,
                l.time.nanos⟩) ∧
      ∀ t : Instant, t.utcReading = l →
        parseBetween t.chars = .ok t := by
  refine ⟨?_, ?_, ?_⟩
  · intro layout places hExact
    exact parse_layoutChars hYear hOrdinary hBefore hAfter
      hExact z
  · intro separator hSeparator places offset hExact
    exact parse_strictChars hYear hOrdinary hBefore hAfter
      hSeparator hExact offset z
  · rintro t rfl
    rcases exists_strictChars_eq hOrdinary with
      ⟨places, hExact, hChars⟩
    have hParsed :=
      parse_strictChars hYear hOrdinary hBefore hAfter
        List.mem_cons_self hExact .capitalZ z
    rw [hChars, LocalTime.inUtc_utcReading,
      WrittenOffset.seconds, Int.sub_zero] at hParsed
    exact hParsed

/-
  A time in Berlin that the clocks show twice, written with
  and without an offset, and an instant in its own text.
-/
theorem parse_written_berlin :
    let z : Zone :=
      ⟨"Europe/Berlin", 3600,
        [⟨1774746000, 7200⟩, ⟨1792890000, 3600⟩]⟩
    let l : LocalTime :=
      ⟨⟨20751⟩, .ofSecond 9000 500000000⟩
    parse z " 2026-10-25 02:30:00.50\u3000" =
        .ok ⟨1792888200, 500000000⟩ ∧
      parse z " 2026-10-25t02:30:00.5\u221205:30\u3000" =
        .ok ⟨1792915200, 500000000⟩ ∧
      parse z " 2026-10-25T02:30:00.500Z\u3000" =
        .ok l.inUtc := by
  intro z l
  have hBefore : ∀ c ∈ [' '], isBlank c = true :=
    List.forall_mem_singleton.mpr (by decide)
  have hAfter : ∀ c ∈ ['\u3000'], isBlank c = true :=
    List.forall_mem_singleton.mpr (by decide)
  have hYear : 0 ≤ l.date.year ∧ l.date.year ≤ 9999 := by
    decide
  have hOrdinary : l.time.nanos < nanosPerSecond := by decide
  rcases parse_written z hYear hOrdinary hBefore hAfter with
    ⟨hWall, hStrict, hInstant⟩
  have hLocal :
      Bounded.toSchedule (z.localize l) =
        .ok ⟨1792888200, 500000000⟩ := by
    decide
  have hEarlier :
      (⟨l.inUtc.seconds
          - (WrittenOffset.signed .minus 5 30).seconds,
        l.time.nanos⟩ : Instant) =
        ⟨1792915200, 500000000⟩ := by
    decide
  have hWallText :
      String.ofList
          ([' '] ++ l.layoutChars .blankWithSeconds 2
            ++ ['\u3000']) =
        " 2026-10-25 02:30:00.50\u3000" := by
    decide
  have hStrictText :
      String.ofList
          ([' '] ++ l.strictChars 't' 1 (.signed .minus 5 30)
            ++ ['\u3000']) =
        " 2026-10-25t02:30:00.5\u221205:30\u3000" := by
    decide
  have hInstantText :
      String.ofList ([' '] ++ l.inUtc.chars ++ ['\u3000']) =
        " 2026-10-25T02:30:00.500Z\u3000" := by
    decide
  refine ⟨?_, ?_, ?_⟩
  · rw [← hWallText, ← hLocal]
    exact hWall .blankWithSeconds 2 (by decide)
  · rw [← hStrictText, ← hEarlier]
    exact hStrict 't' (by decide) 1 (.signed .minus 5 30)
      (by decide)
  · rw [← hInstantText]
    exact hInstant l.inUtc l.utcReading_inUtc

end EventSeries.ManualDate
