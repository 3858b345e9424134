import Followup.Main
import Followup.Proofs.Engine.Plan
import Followup.Proofs.Engine.Agreement
import Followup.Proofs.Engine.CommandGrammar
import Followup.Proofs.Engine.Firing
import Followup.Proofs.Engine.Interleaving
import Followup.Proofs.Engine.OnTime
import Followup.Proofs.Engine.OpenHours
import Followup.Proofs.Engine.Pace
import Followup.Proofs.Engine.Resolution
import Followup.Proofs.Engine.Retry
import Followup.Proofs.Engine.TimerBalance
import Followup.Proofs.BusinessHours.Addition
import Followup.Proofs.BusinessHours.Landing
import Followup.Proofs.Engine.Record
import Followup.Proofs.Engine.Bystander
import Followup.Proofs.Engine.Containment
import Followup.Proofs.Engine.Eviction
import Followup.Proofs.Engine.Isolation
import Followup.Proofs.BusinessHours.Reach
import Followup.Proofs.Engine.Faultless
import Followup.Proofs.Rules.Builtin
import Followup.Proofs.Rules.Catalog
import Followup.Proofs.Calendar.Turns
import Followup.Proofs.BusinessHours.ClockChange
import Followup.Proofs.BusinessHours.NextStart
import Followup.Proofs.Engine.Elapsed
import Followup.Proofs.Rules.FirstHit
import Followup.Proofs.Engine.Deferral
import Followup.Proofs.Notice.Wording
import Followup.Proofs.Engine.Delivery
import Followup.Proofs.Engine.Shutdown
import Followup.Proofs.Rules.Layout
import Followup.Proofs.Rules.FieldOrder
import Followup.Proofs.Rules.Exclusion
import Followup.Proofs.Rules.Repetition
import Followup.Proofs.Rules.Extension
import Followup.Proofs.Rules.Listing
import Followup.Proofs.Rules.Forms
import Followup.Proofs.Rules.Loading
import Followup.Proofs.Settings.Range
import Followup.Proofs.Calendar.Offset
import Followup.Proofs.Settings.Consistency
import Followup.Proofs.Worker.Folder
import Followup.Proofs.Worker.Exchange
import Followup.Proofs.Worker.Session
import Followup.Proofs.Notice.Reference
import Followup.Proofs.BusinessHours.Days
import Followup.Proofs.Calendar.Span
import Followup.Proofs.Notice.Verbatim
import Followup.Engine.Timers.Watch
import Followup.Proofs.Engine.TimerView
