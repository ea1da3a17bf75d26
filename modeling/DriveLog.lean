import DriveLog.Config.Settings
import DriveLog.Session
import DriveLog.Proofs.Outcome
import DriveLog.Proofs.Agreement
import DriveLog.Proofs.RangeMap
import DriveLog.Proofs.Weather.Round
import DriveLog.Proofs.Weather.Cache
import DriveLog.Proofs.Weather.Served
import DriveLog.Proofs.Store.Law
import DriveLog.Proofs.Store.Frame
import DriveLog.Proofs.Trip.Fact
import DriveLog.Proofs.Trip.Nesting
import DriveLog.Proofs.Trip.Pending
import DriveLog.Proofs.Trip.Touching
import DriveLog.Proofs.Trip.Calls
import DriveLog.Proofs.Trip.Merge
import DriveLog.Proofs.Trip.Recording
import DriveLog.Proofs.Trip.Components
import DriveLog.Proofs.Trip.Run
import DriveLog.Proofs.Trip.Frame
import DriveLog.Proofs.Trip.Attempt
import DriveLog.Proofs.Timeline.Active
import DriveLog.Proofs.Timeline.Sweep
import DriveLog.Proofs.Timeline.Chain
import DriveLog.Proofs.Timeline.Report
import DriveLog.Proofs.Weather.Condition
import DriveLog.Proofs.Ingest.Run
import DriveLog.Proofs.Timeline.Peak
import DriveLog.Proofs.Timeline.NormalForm
import DriveLog.Proofs.Trip.Parts
import DriveLog.Proofs.Ingest.Listing
import DriveLog.Proofs.Ingest.Guarantee
import DriveLog.Proofs.Ingest.Current
import DriveLog.Proofs.Timeline.Reach
import DriveLog.Proofs.Ingest.Source
import DriveLog.Proofs.Timeline.Walk
import DriveLog.Proofs.Timeline.Memory
import DriveLog.Proofs.Timeline.Question
import DriveLog.Proofs.RangeMap.Columns
import DriveLog.Proofs.RangeMap.Insertion
import DriveLog.Proofs.Trip.Ownership
import DriveLog.Proofs.Trip.Effect
import DriveLog.Proofs.Timeline.Ownership
import DriveLog.Proofs.RangeMap.Filling
import DriveLog.Proofs.Weather.Answer
import DriveLog.Proofs.Weather.Order
import DriveLog.Proofs.Store.Issue
import DriveLog.Proofs.Trip.Halfway
import DriveLog.Proofs.Trip.Orderly
import DriveLog.Proofs.Trip.Retry
import DriveLog.Proofs.Trip.Placing
import DriveLog.Proofs.RangeMap.Building
import DriveLog.Proofs.Timeline.Trail
import DriveLog.Proofs.Weather.Grouping
import DriveLog.Proofs.Store.Wire
import DriveLog.Proofs.Store.Call
import DriveLog.Proofs.Store.Archive
import DriveLog.Proofs.Subtraction
import DriveLog.Proofs.Weather.Gap
import DriveLog.Proofs.Timeline.Ending
import DriveLog.Proofs.Overflow
