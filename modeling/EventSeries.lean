import EventSeries.Main
import EventSeries.Proofs.Refresh.Advanced
import EventSeries.Proofs.Refresh.Postponed
import EventSeries.Proofs.Session.OpenDates
import EventSeries.Session
import EventSeries.Proofs.Exception.Append
import EventSeries.Proofs.Series.Sorting
import EventSeries.Proofs.Series.Reindexed
import EventSeries.Proofs.Series.AddedRecord
import EventSeries.Proofs.Refresh.Unlisted
import EventSeries.Proofs.Refresh.Again
import EventSeries.Proofs.Refresh.Restored
import EventSeries.Proofs.Series.Pattern
import EventSeries.Proofs.Series.Fewer
import EventSeries.Proofs.Series.Horizon
import EventSeries.Proofs.Refresh.Runs
import EventSeries.Proofs.Refresh.Writes
import EventSeries.Proofs.Time.Spans
import EventSeries.Proofs.Refresh.Offsets
import EventSeries.Proofs.Refresh.Validity
import EventSeries.Proofs.Refresh.Sharing
import EventSeries.Proofs.Series.Windowed
import EventSeries.Proofs.Series.AddedWindow
import EventSeries.Proofs.Zone.Folds
import EventSeries.Proofs.Series.Upcoming
import EventSeries.Proofs.Series.Materialized
import EventSeries.Proofs.Override.Times
import EventSeries.Proofs.Refresh.Range
import EventSeries.Proofs.Json.Records
import EventSeries.Proofs.Rule.Follows
import EventSeries.Proofs.Zone.Inverse
import EventSeries.Proofs.Series.Truncation
import EventSeries.Proofs.Override.Detached
import EventSeries.Proofs.Refresh.FirstRecords
import EventSeries.Proofs.Series.Listed
import EventSeries.Proofs.ManualDate.Written
import EventSeries.Proofs.Override.FreeSlugs
import EventSeries.Proofs.Text.Slug
import EventSeries.Proofs.Settings.DefaultHorizon
import EventSeries.Proofs.Rule.Description
import EventSeries.Proofs.Time.MonthSums
