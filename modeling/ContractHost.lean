import ContractHost.Config.Codec
import ContractHost.Manager
import ContractHost.Json.Printer
import ContractHost.Script.Run
import ContractHost.Proofs.Lockstep
import ContractHost.Proofs.Script.Congruence
import ContractHost.Proofs.Script.Moves
import ContractHost.Proofs.Script.Interruption
import ContractHost.Proofs.Script.Linking
import ContractHost.Proofs.Script.Metering
import ContractHost.Proofs.Script.Limits
import ContractHost.Proofs.Script.Arithmetic
import ContractHost.Proofs.Script.Template
import ContractHost.Proofs.Script.Sight
import ContractHost.Proofs.Script.Lockstep
import ContractHost.Proofs.Context
import ContractHost.Proofs.Registry
import ContractHost.Proofs.DebugLog
import ContractHost.Proofs.DebugText
import ContractHost.Proofs.Resources
import ContractHost.Proofs.Gas
import ContractHost.Proofs.Accumulation
import ContractHost.Proofs.Table
import ContractHost.Proofs.CallArgs
import ContractHost.Proofs.Text.Decimal
import ContractHost.Proofs.Text.Utf8
import ContractHost.Proofs.Json.Scalars
import ContractHost.Proofs.Json.Printing
import ContractHost.Proofs.Json.Decoder
import ContractHost.Proofs.Json.Records
import ContractHost.Proofs.Documents
import ContractHost.Proofs.Arguments
import ContractHost.Proofs.Host.Quiet
import ContractHost.Proofs.Host.Aborts
import ContractHost.Proofs.Host.Acts
import ContractHost.Proofs.Host.Behaves
import ContractHost.Proofs.Host.Objects
import ContractHost.Proofs.CodeCache.Ledger
import ContractHost.Proofs.CodeCache.Apart
import ContractHost.Proofs.CodeCache.LifeCycle
import ContractHost.Proofs.Store.Keys
import ContractHost.Proofs.Store.Agreement
import ContractHost.Proofs.Store.Lasting
import ContractHost.Proofs.Store.Requests
import ContractHost.Proofs.Store.Logical
import ContractHost.Proofs.Store.Recency
import ContractHost.Proofs.Journal.Calls
import ContractHost.Proofs.Journal.Accounts
import ContractHost.Proofs.Journal.Failures
import ContractHost.Proofs.Journal.Answers
import ContractHost.Proofs.Journal.Aborts
import ContractHost.Proofs.Call.Code
import ContractHost.Proofs.Call.Anatomy
import ContractHost.Proofs.Call.Session
import ContractHost.Proofs.Call.Stages
import ContractHost.Proofs.Call.Course
import ContractHost.Proofs.Call.Runs
import ContractHost.Proofs.Call.Invariant
import ContractHost.Proofs.Call.Lockstep
import ContractHost.Proofs.Call.Balance
import ContractHost.Proofs.Call.Faithful
import ContractHost.Proofs.Call.Transparent
import ContractHost.Proofs.Call.Eviction
import ContractHost.Proofs.Call.Isolation
import ContractHost.Proofs.Call.Usage
import ContractHost.Proofs.Call.Answers
import ContractHost.Proofs.Call.Arguments
import ContractHost.Proofs.Call.Failure
import ContractHost.Proofs.Call.Validation
import ContractHost.Proofs.Call.Aborts
import ContractHost.Proofs.Call.Nesting
import ContractHost.Proofs.Call.Limits
import ContractHost.Proofs.Call.Watch
import ContractHost.Proofs.Call.Tally
import ContractHost.Proofs.Call.Stale
import ContractHost.Proofs.Call.Record
import ContractHost.Proofs.Call.Redeploy
import ContractHost.Proofs.Call.Tidy
import ContractHost.Proofs.Call.Instances
import ContractHost.Proofs.Call.Heed
import ContractHost.Proofs.Call.Sticky
