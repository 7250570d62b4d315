import OrderBench.Main
import OrderBench.Order.Decode
import OrderBench.Driver
import OrderBench.Proofs.Desk
import OrderBench.Proofs.Phase
import OrderBench.Proofs.Tasks
import OrderBench.Proofs.Conservation
import OrderBench.Proofs.Timeline
import OrderBench.Proofs.Load
import OrderBench.Proofs.Session
import OrderBench.Proofs.Permits
import OrderBench.Proofs.PlaceRun
import OrderBench.Proofs.CancelRun
import OrderBench.Proofs.MixedRun
import OrderBench.Proofs.Provision
import OrderBench.Proofs.Progress
import OrderBench.Proofs.Elapsed
import OrderBench.Proofs.Schedule
import OrderBench.Proofs.Speedup
import OrderBench.Proofs.NamedOrders
import OrderBench.Proofs.Counts
import OrderBench.Proofs.Limits
import OrderBench.Json.Grammar
import OrderBench.Proofs.Tokens
import OrderBench.Proofs.Skipping
import OrderBench.Proofs.OrderText
import OrderBench.Proofs.RoundTrip
import OrderBench.Proofs.OpenOrders
import OrderBench.Proofs.ErrorTable
import OrderBench.Proofs.Summary
import OrderBench.Proofs.Reordering
import OrderBench.Proofs.Lexing
import OrderBench.Proofs.Reading
import OrderBench.Proofs.Alike
import OrderBench.Proofs.Rounding
import OrderBench.Proofs.Vanishing
import OrderBench.Proofs.OrderIds
import OrderBench.Proofs.Alignment
import OrderBench.Proofs.ErrorRanking
import OrderBench.Proofs.Outcomes
import OrderBench.Proofs.Balance
import OrderBench.Proofs.Percentile
import OrderBench.Proofs.CancelTargets
import OrderBench.Proofs.FailureCauses
import OrderBench.Proofs.Drawing
import OrderBench.Proofs.Resolution
