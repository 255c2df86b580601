import EventSeries.Event.ManualDates
import EventSeries.Event.Validation
import EventSeries.Proofs.Text.Blank
import EventSeries.Proofs.Time.Order

/-
  The two ways in which the dates of an event that are listed
  by hand are read.  The check of an event reads each entry as
  it stands; its series reads the entries that are left when
  blanks are taken off.  Both read the same instants, so that
  of a list that passes the check no entry is dropped.

  Main declarations:
    * `ManualDate.parse_trim_eq_ok_iff`
    * `Event.checkManualDates_eq_ok_iff`
    * `Event.readEntries_of_parsed`
    * `Event.manualDates_of_validate`
-/

namespace EventSeries

variable {z : Zone}

------------------------------------------------------------
-- Single Entries
------------------------------------------------------------

namespace ManualDate

/- Blanks around an entry make no difference to its instant. -/
theorem parse_trim_eq_ok_iff
    {raw : String}
    {t : Instant} :
    parse z (trim raw) = .ok t ↔ parse z raw = .ok t := by
  unfold parse
  rw [toList_trim, trimChars_trimChars]
  cases reading? (trimChars raw.toList) with
  | some r => exact Iff.rfl
  | none => exact iff_of_false nofun nofun

/- An entry of blanks only has no instant. -/
theorem trim_ne_of_parse
    {raw : String}
    {t : Instant}
    (hParsed : parse z raw = .ok t) :
    trim raw ≠ "" := by
  intro hEmpty
  rw [← parse_trim_eq_ok_iff, hEmpty] at hParsed
  cases hParsed

end ManualDate

------------------------------------------------------------
-- Lists Of Entries
------------------------------------------------------------

/- Instants in order of time are the same instants in order. -/
theorem Event.sortInstants_spec
    (ts : List Instant) :
    (sortInstants ts).Perm ts ∧
      (sortInstants ts).Pairwise (· ≤ ·) := by
  have hTrans (a b c : Instant)
      (hAB : decide (a ≤ b) = true)
      (hBC : decide (b ≤ c) = true) :
      decide (a ≤ c) = true := by
    rw [decide_eq_true_eq] at hAB hBC ⊢
    exact Std.le_trans hAB hBC
  have hTotal (a b : Instant) :
      (decide (a ≤ b) || decide (b ≤ a)) = true := by
    rw [Bool.or_eq_true, decide_eq_true_eq, decide_eq_true_eq]
    exact Std.le_total
  refine ⟨List.mergeSort_perm _ _, ?_⟩
  exact (List.pairwise_mergeSort hTrans hTotal ts).imp
    of_decide_eq_true

namespace Event

/- A list passes the check if every entry has an instant. -/
theorem checkManualDates_eq_ok_iff
    {entries : List String} :
    checkManualDates z entries = .ok () ↔
      ∃ ts : List Instant,
        entries.map (ManualDate.parse z) = ts.map .ok := by
  induction entries with
  | nil => exact iff_of_true rfl ⟨[], rfl⟩
  | cons entry entries ih =>
      rw [checkManualDates, List.map_cons]
      cases hFirst : ManualDate.parse z entry with
      | error error =>
          refine iff_of_false nofun ?_
          rintro ⟨ts, hAll⟩
          cases ts <;> cases hAll
      | ok t =>
          refine ih.trans ⟨?_, ?_⟩
          · rintro ⟨ts, hRest⟩
            exact ⟨t :: ts, congrArg (.ok t :: ·) hRest⟩
          · rintro ⟨ts, hAll⟩
            cases ts with
            | nil => cases hAll
            | cons u us =>
                exact ⟨us, (List.cons.inj hAll).2⟩

/- Entries that have instants are read without a report. -/
theorem readEntries_of_parsed
    {entries : List String}
    {ts : List Instant}
    (hParsed :
      entries.map (ManualDate.parse z) = ts.map .ok)
    (event : Id) :
    readEntries z event entries = ⟨.ok ts, []⟩ := by
  induction entries generalizing ts with
  | nil =>
      cases ts with
      | nil => rfl
      | cons t ts => cases hParsed
  | cons entry entries ih =>
      cases ts with
      | nil => cases hParsed
      | cons t ts =>
          simp only [List.map_cons, List.cons.injEq] at hParsed
          unfold readEntries
          rw [hParsed.1, ih hParsed.2]
          rfl

/- None of them is blank, and trimming changes no instant. -/
theorem manualEntries_of_parsed
    {e : Event}
    {ts : List Instant}
    (hParsed :
      e.manualOccurrences.map (ManualDate.parse z) =
        ts.map .ok) :
    e.manualEntries.map (ManualDate.parse z) = ts.map .ok := by
  have hEach (raw : String)
      (hMember : raw ∈ e.manualOccurrences) :
      ∃ t, ManualDate.parse z raw = .ok t := by
    have hListed :
        ManualDate.parse z raw ∈ ts.map Except.ok := by
      rw [← hParsed]
      exact List.mem_map_of_mem hMember
    rcases List.mem_map.mp hListed with ⟨t, _, hParse⟩
    exact ⟨t, hParse.symm⟩
  have hKept :
      e.manualEntries = e.manualOccurrences.map trim := by
    rw [manualEntries, List.filter_eq_self]
    intro entry hMember
    rcases List.mem_map.mp hMember with ⟨raw, hRaw, rfl⟩
    rcases hEach raw hRaw with ⟨t, hParse⟩
    exact decide_eq_true (ManualDate.trim_ne_of_parse hParse)
  rw [hKept, ← hParsed, List.map_map, List.map_inj_left]
  intro raw hMember
  rcases hEach raw hMember with ⟨t, hParse⟩
  have hTrimmed : ManualDate.parse z (trim raw) = .ok t :=
    ManualDate.parse_trim_eq_ok_iff.mpr hParse
  simp only [Function.comp_apply, hTrimmed, hParse]

------------------------------------------------------------
-- Valid Events
------------------------------------------------------------

theorem validate_eq_ok_iff
    {e : Event} :
    e.validate z = .ok () ↔
      e.conflict? = none ∧
        checkManualDates z e.manualOccurrences = .ok () := by
  unfold validate
  cases e.conflict? with
  | none => simp
  | some conflict => simp

/-
  The dates of a valid event are the instants of all of its
  entries, in order of time, and none is reported as dropped.
-/
theorem manualDates_of_validate
    {e : Event}
    (hValid : e.validate z = .ok ()) :
    ∃ dates : List Instant,
      e.manualDates z = ⟨.ok dates, []⟩ ∧
        dates.Pairwise (· ≤ ·) ∧
        (dates.map .ok).Perm
          (e.manualOccurrences.map (ManualDate.parse z)) := by
  rcases checkManualDates_eq_ok_iff.mp
      (validate_eq_ok_iff.mp hValid).2 with
    ⟨ts, hParsed⟩
  rcases sortInstants_spec ts with ⟨hPerm, hSorted⟩
  refine ⟨sortInstants ts, ?_, hSorted, ?_⟩
  · rw [manualDates,
      readEntries_of_parsed (manualEntries_of_parsed hParsed)]
    rfl
  · rw [hParsed]
    exact hPerm.map Except.ok

end Event

end EventSeries
