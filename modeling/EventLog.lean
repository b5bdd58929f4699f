import EventLog.Access.Memory
import EventLog.Access.Postgres
import EventLog.Backend.Disturbed
import EventLog.Config.Basic
import EventLog.Decimal.Positional
import EventLog.Decimal.Reader
import EventLog.Metrics.Exposition
import EventLog.Order.CommandHandler
import EventLog.Postgres.Address
import EventLog.Postgres.Server
import EventLog.Proofs.Dictionary
import EventLog.Proofs.Except
import EventLog.Proofs.Calls
import EventLog.Proofs.ReadQuery
import EventLog.Proofs.Store.Writes
import EventLog.Proofs.Store.Numbering
import EventLog.Proofs.Store.Reading
import EventLog.Proofs.Store.AllOrNothing
import EventLog.Proofs.Store.CompareAndSwap
import EventLog.Proofs.Store.AppendOnly
import EventLog.Proofs.Store.CatchUp
import EventLog.Proofs.Store.Queries
import EventLog.Proofs.Store.Agreement
import EventLog.Proofs.Postgres.Transactions
import EventLog.Proofs.Store.Places
import EventLog.Proofs.Store.Holders
import EventLog.Proofs.Postgres.Writes
import EventLog.Proofs.Postgres.Mirror
import EventLog.Proofs.Postgres.Refinement
import EventLog.Proofs.Postgres.Clauses
import EventLog.Proofs.Postgres.Wording
import EventLog.Proofs.Postgres.Rendering
import EventLog.Proofs.Postgres.Selection
import EventLog.Proofs.Json.Grammar
import EventLog.Proofs.Json.Lexing
import EventLog.Proofs.Json.RoundTrip
import EventLog.Proofs.Json.Acceptance
import EventLog.Proofs.Json.Records
import EventLog.Proofs.Numerals
import EventLog.Proofs.Timestamp
import EventLog.Proofs.Uuid
import EventLog.Proofs.StreamNames
import EventLog.Proofs.Registries
import EventLog.Proofs.Bus
import EventLog.Proofs.Subscriptions
import EventLog.Proofs.Order.Codec
import EventLog.Proofs.Order.Payloads
import EventLog.Proofs.Repository.InMemory
import EventLog.Proofs.Repository.Loading
import EventLog.Proofs.Repository.Saving
import EventLog.Proofs.Repository.Isolation
import EventLog.Proofs.Repository.LosingAnswers
import EventLog.Proofs.Retry
import EventLog.Proofs.Pauses
import EventLog.Proofs.Config
import EventLog.Proofs.Repository.Attempts
import EventLog.Proofs.Repository.SharedLog
import EventLog.Proofs.Repository.Execution
import EventLog.Proofs.Repository.Metering
import EventLog.Proofs.Order.Handling
import EventLog.Proofs.Order.Clients
import EventLog.Proofs.Order.NoHiddenWrite
import EventLog.Proofs.Postgres.Conversations
import EventLog.Proofs.Postgres.Discipline
import EventLog.Proofs.Postgres.HeadLock
import EventLog.Proofs.Postgres.Rollbacks
import EventLog.Proofs.Postgres.ReturnedRows
import EventLog.Proofs.Postgres.ReadBack
import EventLog.Proofs.Order.Registration
import EventLog.Proofs.Order.Lifecycle
import EventLog.Proofs.Order.Drafts
import EventLog.Proofs.Order.LostAnswers
import EventLog.Proofs.Order.SaveLoad
import EventLog.Proofs.Order.Loading
import EventLog.Proofs.Order.View
import EventLog.Proofs.Order.ReadModel
import EventLog.Proofs.Order.Redelivery
import EventLog.Proofs.Order.Acceptance
import EventLog.Proofs.Aggregate.Applying
import EventLog.Proofs.Aggregate.Versions
import EventLog.Proofs.Aggregate.Replay
import EventLog.Proofs.Order.Replay
import EventLog.Proofs.Rounds
