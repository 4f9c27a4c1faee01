import Formwork.Launch
import Formwork.Main
import Formwork.SampleForms
import Formwork.Proofs.Interleaving
import Formwork.Proofs.Bookkeeping
import Formwork.Proofs.Soundness
import Formwork.Proofs.Reachable
import Formwork.Proofs.Runs
import Formwork.Proofs.Phases
import Formwork.Proofs.Alterations
import Formwork.Proofs.Results
import Formwork.Proofs.StaleResults
import Formwork.Proofs.Dues
import Formwork.Proofs.Settling
import Formwork.Proofs.Convergence
import Formwork.Proofs.Batches
import Formwork.Proofs.SubmissionGate
import Formwork.Proofs.Scheduling
import Formwork.Proofs.Effects
import Formwork.Proofs.LiveRuns
import Formwork.Proofs.AcceptedData
import Formwork.Proofs.BuiltinRules
import Formwork.Proofs.FailedEdits
import Formwork.Proofs.StuckFields
import Formwork.Proofs.Alarms
import Formwork.Proofs.HiddenTasks
import Formwork.Proofs.HiddenTurns
import Formwork.Proofs.Superseding
import Formwork.Proofs.Twins
import Formwork.Proofs.TwinSteps
import Formwork.Proofs.TwinTurns
import Formwork.Proofs.Loads
import Formwork.Proofs.Ranks
import Formwork.Proofs.TwinRuns
import Formwork.Proofs.Telling
import Formwork.Proofs.Acts
import Formwork.Proofs.Moves
import Formwork.Proofs.Deliveries
import Formwork.Proofs.InSync
import Formwork.Proofs.Played
import Formwork.Proofs.Schedules
import Formwork.Proofs.JobTurns
import Formwork.Proofs.Ticks
import Formwork.Proofs.Windows
import Formwork.Proofs.FieldPauses
import Formwork.Proofs.FormTimer
import Formwork.Proofs.FormPauses
import Formwork.Proofs.Renaming
import Formwork.Proofs.Shadows
import Formwork.Proofs.OtherFields
import Formwork.Proofs.Isolation
import Formwork.Proofs.Scripts
import Formwork.Proofs.Outcomes
import Formwork.Proofs.Rechecks
import Formwork.Proofs.Freshness
import Formwork.Proofs.Verdicts
import Formwork.Proofs.Reentries
import Formwork.Proofs.Faults
import Formwork.Proofs.Served
import Formwork.Proofs.Endpoints
import Formwork.Proofs.CachedValidators
import Formwork.Proofs.Exports
import Formwork.Proofs.Totality
import Formwork.Proofs.RoundTrips
import Formwork.Proofs.Leftovers
import Formwork.Proofs.ValidFolders
import Formwork.Proofs.BrokenForms
import Formwork.Proofs.CompletionOrders
import Formwork.Proofs.Places
import Formwork.Proofs.Wakefulness
import Formwork.Proofs.Continuations
import Formwork.Proofs.Undisturbed
import Formwork.Proofs.Rounds
import Formwork.Proofs.Resting
import Formwork.Proofs.WaitIdle
import Formwork.Proofs.Flushes
import Formwork.Proofs.Flushing
import Formwork.Proofs.Matching
import Formwork.Proofs.Requirements
import Formwork.Proofs.IsoDates
import Formwork.Proofs.Resubmission
import Formwork.Proofs.Addresses
import Formwork.Proofs.NamingStyles
import Formwork.Proofs.Defects
import Formwork.Proofs.FormDocuments
import Formwork.Proofs.Redactions
import Formwork.Proofs.DefectPlaces
import Formwork.Proofs.KeyedDocuments
import Formwork.Proofs.IdleLimits
import Formwork.Proofs.Registrations
import Formwork.Proofs.Drafts
import Formwork.Proofs.Replays
