import JobRoster.Cron.Expression
import JobRoster.Cron.Failure
import JobRoster.Cron.Field
import JobRoster.Cron.Fire
import JobRoster.Cron.Schedule
import JobRoster.Datum.Basic
import JobRoster.Datum.Codec
import JobRoster.Datum.JsonPrinter
import JobRoster.Datum.JsonReader
import JobRoster.Engine.Call
import JobRoster.Engine.Event
import JobRoster.Engine.Memory
import JobRoster.Engine.Misfire
import JobRoster.Engine.Program
import JobRoster.Engine.Scripted
import JobRoster.Engine.Store
import JobRoster.Instant.Basic
import JobRoster.Instant.Date
import JobRoster.Instant.Printer
import JobRoster.Instant.Reader
import JobRoster.Job.Basic
import JobRoster.Job.Envelope
import JobRoster.Job.GroupMatcher
import JobRoster.Job.Key
import JobRoster.Job.Payload
import JobRoster.MutationLock.Basic
import JobRoster.Number.Binary64
import JobRoster.Number.Layout
import JobRoster.Number.Shortest
import JobRoster.Roster.Basic
import JobRoster.Roster.Declaration
import JobRoster.Roster.Deletion
import JobRoster.Roster.OfProcess
import JobRoster.Settings.Basic
import JobRoster.Settings.Environment
import JobRoster.Settings.Load
import JobRoster.Settings.Naming
import JobRoster.Settings.Toml.Document
import JobRoster.Settings.Toml.Scalar
import JobRoster.Settings.Toml.Table
import JobRoster.Settings.Validation
import JobRoster.Text.Blank
import JobRoster.Text.Digits
import JobRoster.Text.Fold
import JobRoster.Text.Quoted
import JobRoster.Text.Unseen
import JobRoster.Proofs.MutationLock.Exclusion
import JobRoster.Proofs.MutationLock.Eviction
import JobRoster.Proofs.Engine.Exchanges
import JobRoster.Proofs.Engine.Faults
import JobRoster.Proofs.Engine.History
import JobRoster.Proofs.Engine.Leads
import JobRoster.Proofs.Engine.Locality
import JobRoster.Proofs.Engine.Reading
import JobRoster.Proofs.Job.Merge
import JobRoster.Proofs.Roster.Crashes
import JobRoster.Proofs.Roster.Crew
import JobRoster.Proofs.Roster.Deletions
import JobRoster.Proofs.Roster.FireTimes
import JobRoster.Proofs.Roster.Keeping
import JobRoster.Proofs.Roster.Log
import JobRoster.Proofs.Roster.Operations
import JobRoster.Proofs.Roster.Projects
import JobRoster.Proofs.Roster.Protocol
import JobRoster.Proofs.Roster.Redeclaration
import JobRoster.Proofs.Roster.Retries
import JobRoster.Proofs.Roster.Serial
import JobRoster.Proofs.Roster.Serializability
import JobRoster.Proofs.Roster.Sessions
import JobRoster.Proofs.Roster.Validity
import JobRoster.Proofs.Settings.Naming
import JobRoster.Proofs.Cron.Fire
import JobRoster.Proofs.Cron.LetterCase
import JobRoster.Proofs.Instant.Calendar
import JobRoster.Proofs.MutationLock.Progress
import JobRoster.Proofs.Cron.Slots
import JobRoster.Proofs.Cron.Series
import JobRoster.Proofs.Engine.Misfires
import JobRoster.Proofs.Engine.Repeats
import JobRoster.Proofs.Datum.Spelling
import JobRoster.Proofs.Job.Spelling
import JobRoster.Proofs.Settings.Spelling
import JobRoster.Proofs.Engine.Counting
import JobRoster.Proofs.Engine.Rescheduling
import JobRoster.Proofs.Engine.Unanswered
import JobRoster.Proofs.Roster.Commuting
import JobRoster.Proofs.Roster.Tallies
import JobRoster.Proofs.Roster.Shutdown
import JobRoster.Proofs.Engine.BulkDeletion
import JobRoster.Proofs.Job.Union
import JobRoster.Proofs.Settings.Expansion
import JobRoster.Proofs.Settings.Acceptance
import JobRoster.Proofs.Engine.Listing
import JobRoster.Proofs.Roster.OfProcess
