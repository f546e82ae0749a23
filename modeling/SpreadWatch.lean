import SpreadWatch.Main
import SpreadWatch.Watch
import SpreadWatch.Proofs.Rounding
import SpreadWatch.Proofs.Action
import SpreadWatch.Proofs.Decimal.Arithmetic
import SpreadWatch.Proofs.Desk.Cycle
import SpreadWatch.Proofs.Desk.Ledger
import SpreadWatch.Proofs.WaterMark.Atomicity
import SpreadWatch.Proofs.Desk.Account
import SpreadWatch.Proofs.Desk.Frame
import SpreadWatch.Proofs.Decimal.Text
import SpreadWatch.Proofs.Json.RoundTrip
import SpreadWatch.Proofs.Files
import SpreadWatch.Proofs.Sink.FileEvents
import SpreadWatch.Proofs.Desk.FeeSides
import SpreadWatch.Proofs.Desk.CycleOrder
import SpreadWatch.Proofs.Config.DeliveryEscape
import SpreadWatch.Proofs.Config.Agreement
import SpreadWatch.Proofs.Spread.Floor
import SpreadWatch.Proofs.Desk.Extrema
import SpreadWatch.Proofs.Sink.FailedDelivery
import SpreadWatch.Proofs.Calendar.Days
import SpreadWatch.Proofs.Calendar.OffsetTable
import SpreadWatch.Proofs.Calendar.Reading
import SpreadWatch.Proofs.Report.Daily
import SpreadWatch.Proofs.Json.Cut
import SpreadWatch.Proofs.Spread.Monotone
import SpreadWatch.Proofs.Spread.Mirror
import SpreadWatch.Proofs.Desk.RoundTrip
import SpreadWatch.Proofs.Desk.Isolation
import SpreadWatch.Proofs.Binary64.Ratio
import SpreadWatch.Proofs.Freshness.Seconds
import SpreadWatch.Proofs.Freshness.Window
import SpreadWatch.Proofs.Calendar.Later
import SpreadWatch.Proofs.Report.Wait
import SpreadWatch.Proofs.Value.Keys
import SpreadWatch.Proofs.Value.Nested
import SpreadWatch.Proofs.Yaml.Making
import SpreadWatch.Proofs.Yaml.Assembled
import SpreadWatch.Proofs.Config.Merge
import SpreadWatch.Proofs.Config.Combinations
import SpreadWatch.Proofs.Config.Readings
import SpreadWatch.Proofs.Config.Layers
import SpreadWatch.Proofs.Config.FixedPoint
import SpreadWatch.Proofs.WaterMark.Summary
import SpreadWatch.Proofs.Spread.Base
import SpreadWatch.Proofs.Spread.EightPlaces
import SpreadWatch.Proofs.Report.TimeOfDay
import SpreadWatch.Proofs.Desk.FeeCalls
import SpreadWatch.Proofs.Desk.FeeAnswers
