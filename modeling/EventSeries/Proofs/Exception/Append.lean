import EventSeries.Proofs.Exception.Lookup

/-
  A record added behind others.  All other dates keep their
  records, and its own date gets it unless it had one before.

  Main declarations:
    * `ExceptionIndex.record?_ofList_append_of_ne`
    * `ExceptionIndex.record?_ofList_append_self`
    * `ExceptionIndex.records_ofList_append_of_recorded`
-/

namespace EventSeries

namespace ExceptionIndex

variable {series : Id}
variable {records : List ExceptionRecord}
variable {r : ExceptionRecord}

theorem ofList_append
    (hSeries : r.series = series) :
    ofList series (records ++ [r]) =
      (ofList series records).add r := by
  simp [ofList, List.filter_append, List.foldl_append, hSeries]

/- Other dates keep their records. -/
theorem record?_ofList_append_of_ne
    {date : Instant}
    (hOther : date ≠ r.occurrenceStart) :
    (ofList series (records ++ [r])).record? date =
      (ofList series records).record? date := by
  have hMiss :
      ExceptionRecord.first? [r] series date = none := by
    simp [ExceptionRecord.first?, hOther.symm]
  rw [record?_ofList, record?_ofList, ExceptionRecord.first?,
    List.find?_append]
  change (ExceptionRecord.first? records series date).or
    (ExceptionRecord.first? [r] series date) = _
  rw [hMiss, Option.or_none]

/- A date without a record gets the added one. -/
theorem record?_ofList_append_self
    (hSeries : r.series = series)
    (hNew :
      (ofList series records).record? r.occurrenceStart =
        none) :
    (ofList series (records ++ [r])).record?
      r.occurrenceStart = some r := by
  rw [record?_ofList, ExceptionRecord.first?] at hNew ⊢
  rw [List.find?_append, hNew, Option.none_or]
  simp [hSeries]

/- A record without a start of an override adds none. -/
theorem overrideStartOn?_ofList_append_of_inert
    (hSeries : r.series = series)
    (hNew :
      (ofList series records).record? r.occurrenceStart =
        none)
    (hInert : overrideStart? r = none)
    (date : Instant) :
    (ofList series (records ++ [r])).overrideStartOn? date =
      (ofList series records).overrideStartOn? date := by
  by_cases hDate : date = r.occurrenceStart
  · subst hDate
    rw [overrideStartOn?, overrideStartOn?,
      record?_ofList_append_self hSeries hNew, hNew]
    exact hInert
  · rw [overrideStartOn?, overrideStartOn?,
      record?_ofList_append_of_ne hDate]

/- A record for a date that has one does not count. -/
theorem records_ofList_append_of_recorded
    {old : ExceptionRecord}
    (hSeries : r.series = series)
    (hOld :
      (ofList series records).record? r.occurrenceStart =
        some old) :
    (ofList series (records ++ [r])).records =
      (ofList series records).records := by
  simp [ofList_append hSeries, add, hOld]

end ExceptionIndex

end EventSeries
